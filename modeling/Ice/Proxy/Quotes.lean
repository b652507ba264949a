import Ice.Proxy.Escape
import Ice.Proxy.Reference
import Ice.Misc.Scan

/-!
# Escaped strings in a proxy string

The parser of proxies finds the end of a component with `checkQuote` and with the separators, and
the separator of an identity by counting backslashes. What they find in escaped text: the quotes and
slashes that were escaped are skipped, so that only a backslash at the end of a quoted component
misleads them.
-/

namespace Ice.Proxy

open List

/-! ## The shape of escaped text -/

/-- Text made of characters that stand for themselves and of escape sequences. -/
inductive Shape : Text → Prop
  | nil : Shape []
  | plain {c : Char} {e : Text} (hprintable : 32 ≤ c.toNat) (hbackslash : c ≠ '\\')
      (hquote : c ≠ '"' ∧ c ≠ '\'') (h : Shape e) : Shape (c :: e)
  | escape {d : Char} {t e : Text} (htail : ∀ c ∈ t, c.isAlphanum = true)
      (hwhite : d ∉ ['\t', '\r', '\n']) (hseparator : d ∉ separators) (h : Shape e) :
      Shape ('\\' :: d :: (t ++ e))

variable {special s e : Text}

theorem Escaped.shape (h : Escaped special s e) : Shape e := by
  induction h with
  | nil => exact .nil
  | plain hc _ ih => exact .plain hc.printable hc.not_backslash hc.not_quote ih
  | escape hescape _ ih =>
    exact .escape hescape.tail hescape.not_white
      (fun hmem => (hescape.not_separator _ hmem).1 rfl) ih

theorem Shape.append {e e' : Text} (h : Shape e) (h' : Shape e') : Shape (e ++ e') := by
  induction h with
  | nil => exact h'
  | plain hprintable hbackslash hquote _ ih => exact .plain hprintable hbackslash hquote ih
  | escape htail hwhite hseparator _ ih =>
    rw [cons_append, cons_append, append_assoc]
    exact .escape htail hwhite hseparator ih

theorem ne_of_isAlphanum {c d : Char} (hc : c.isAlphanum = true) (hd : d.isAlphanum = false) :
    c ≠ d := by
  rintro rfl
  rw [hc] at hd
  cases hd

variable {e : Text}

theorem Shape.not_white (h : Shape e) : ∀ c ∈ e, c ∉ ['\t', '\r', '\n'] := by
  have halphanum : ∀ x ∈ ['\t', '\r', '\n'], x.isAlphanum = false ∧ x.toNat < 32 := by simp
  induction h with
  | nil => simp
  | @plain c e hprintable _ _ _ ih =>
    intro x hx
    rcases mem_cons.mp hx with rfl | hx
    · intro hmem
      exact absurd (halphanum _ hmem).2 (by omega)
    · exact ih x hx
  | @escape d t e htail hwhite _ _ ih =>
    intro x hx
    rcases mem_cons.mp hx with rfl | hx
    · decide
    rcases mem_cons.mp hx with rfl | hx
    · exact hwhite
    rcases mem_append.mp hx with hx | hx
    · intro hmem
      exact ne_of_isAlphanum (htail x hx) (halphanum x hmem).1 rfl
    · exact ih x hx

theorem Shape.head_not_quote (h : Shape e) {c : Char} {rest : Text} (he : e = c :: rest) :
    ¬ (c = '"' ∨ c = '\'') := by
  cases h with
  | nil => cases he
  | plain _ _ hquote _ =>
    obtain ⟨rfl, -⟩ := cons_eq_cons.mp he
    exact fun h => h.elim hquote.1 hquote.2
  | escape =>
    obtain ⟨rfl, -⟩ := cons_eq_cons.mp he
    decide

/-! ## Quotes -/

/-- The character before what comes behind a text. -/
def lastOr (last : Char) (s : Text) : Char := s.getLast?.getD last

theorem lastOr_cons (last c : Char) (s : Text) : lastOr last (c :: s) = lastOr c s := by
  cases s with
  | nil => rfl
  | cons d s => rfl

theorem lastOr_append (last : Char) (s t : Text) :
    lastOr last (s ++ t) = lastOr (lastOr last s) t := by
  induction s generalizing last with
  | nil => rfl
  | cons c s ih => rw [cons_append, lastOr_cons, lastOr_cons, ih]

theorem findClosing_of_not_mem {q : Char} {s : Text} (hs : q ∉ s) (last : Char) (rest : Text) :
    findClosing q last (s ++ rest) =
      (findClosing q (lastOr last s) rest).map fun (content, rest) => (s ++ content, rest) := by
  induction s generalizing last with
  | nil => simp [lastOr]
  | cons c s ih =>
    have hc : ¬ (c = q ∧ last ≠ '\\') := fun h => hs (h.1 ▸ mem_cons_self)
    rw [cons_append, findClosing, if_neg hc, ih (not_mem_of_not_mem_cons hs), lastOr_cons,
      Option.map_map]
    rfl

/-- The quotes in escaped text are not taken for the closing one. -/
theorem Shape.findClosing (h : Shape e) (last : Char) (rest : Text) :
    findClosing '"' last (e ++ rest) =
      (Proxy.findClosing '"' (lastOr last e) rest).map fun (content, rest) =>
      (e ++ content, rest) := by
  induction h generalizing last with
  | nil => simp [lastOr]
  | @plain c e _ _ hquote _ ih =>
    have hc : ¬ (c = '"' ∧ last ≠ '\\') := fun h => hquote.1 h.1
    rw [cons_append, Proxy.findClosing, if_neg hc, ih, lastOr_cons, Option.map_map]
    rfl
  | @escape d t e htail _ _ _ ih =>
    have hfirst : ¬ ('\\' = '"' ∧ last ≠ '\\') := by simp
    have hsecond : ¬ (d = '"' ∧ '\\' ≠ '\\') := by simp
    have ht : '"' ∉ t := fun hmem => ne_of_isAlphanum (htail _ hmem) (by decide) rfl
    rw [cons_append, cons_append, append_assoc, Proxy.findClosing, if_neg hfirst,
      Proxy.findClosing, if_neg hsecond, findClosing_of_not_mem ht, ih, lastOr_cons, lastOr_cons,
      lastOr_append, Option.map_map, Option.map_map, Option.map_map]
    congr 1
    funext ⟨content, rest⟩
    simp

/-- A component that is in quotes ends with its quote, if it does not end with a backslash. -/
theorem findClosing_quoted (h : Shape e) (hlast : e.getLast? ≠ some '\\') (rest : Text) :
    findClosing '"' '"' (e ++ '"' :: rest) = some (e, rest) := by
  have hne : lastOr '"' e ≠ '\\' := by
    unfold lastOr
    cases hget : e.getLast? with
    | none => decide
    | some c =>
      rintro rfl
      exact hlast hget
  rw [h.findClosing, Proxy.findClosing, if_pos ⟨rfl, hne⟩]
  simp

/-! ## Components -/

/-- The parser needs quotes around a string. -/
def NeedsQuotes (s : Text) : Prop := ∃ c ∈ separators, c ∈ s

instance (s : Text) : Decidable (NeedsQuotes s) :=
  decidable_of_iff (separators.any fun c => c ∈ s) (by simp [NeedsQuotes])

theorem quote_of_needsQuotes (h : NeedsQuotes e) : quote e = '"' :: (e ++ ['"']) := by
  obtain ⟨c, hc, hmem⟩ := h
  exact if_pos (any_eq_true.mpr ⟨c, hmem, decide_eq_true hc⟩)

theorem quote_of_not_needsQuotes (h : ¬ NeedsQuotes e) : quote e = e := by
  refine if_neg fun hany => h ?_
  obtain ⟨c, hmem, hc⟩ := any_eq_true.mp hany
  exact ⟨c, of_decide_eq_true hc, hmem⟩

theorem Shape.not_whiteOrSeparator (h : Shape e) (hquotes : ¬ NeedsQuotes e) (c : Char)
    (hc : c ∈ e) : isWhiteOrSeparator c = false := by
  refine decide_eq_false fun hmem => ?_
  have hsplit : ∀ x ∈ [' ', '\t', '\r', '\n', ':', '@'], x ∈ separators ∨
      x ∈ ['\t', '\r', '\n'] := by
    simp [separators]
  rcases hsplit c hmem with hmem | hmem
  · exact hquotes ⟨c, hmem, hc⟩
  · exact h.not_white c hc hmem

/-- A component is read back, unless it is in quotes and ends with a backslash. -/
theorem component_quote {stops : Char → Bool}
    (hstops : ∀ c, stops c = true → isWhiteOrSeparator c = true)
    (h : Shape e) (hne : e ≠ []) (hgood : NeedsQuotes e → e.getLast? ≠ some '\\')
    {rest : Text} (hrest : ∀ c ∈ rest.head?, stops c = true) :
    component stops (quote e ++ rest) = some (e, rest) := by
  by_cases hquotes : NeedsQuotes e
  · rw [quote_of_needsQuotes hquotes, cons_append, append_assoc, component, if_pos (.inl rfl)]
    exact findClosing_quoted h (hgood hquotes) rest
  · obtain ⟨c, t, rfl⟩ := exists_cons_of_ne_nil hne
    have hgo : ∀ d ∈ c :: t, (!stops d) = true := by
      intro d hd
      by_contra hstop
      have hwhite := hstops d (by simpa using hstop)
      rw [h.not_whiteOrSeparator hquotes d hd] at hwhite
      cases hwhite
    have hend : rest.takeWhile (!stops ·) = [] ∧ rest.dropWhile (!stops ·) = rest := by
      cases rest with
      | nil => exact ⟨rfl, rfl⟩
      | cons d rest => simp [hrest d rfl]
    rw [quote_of_not_needsQuotes hquotes, cons_append, component,
      if_neg (h.head_not_quote rfl), ← cons_append, takeWhile_append_of_pos hgo,
      dropWhile_append_of_pos hgo, hend.1, hend.2, append_nil]

/-- A component in quotes with a backslash at its end. -/
theorem component_misled {stops : Char → Bool} (h : Shape e) (hquotes : NeedsQuotes e)
    (hlast : e.getLast? = some '\\') (rest : Text) : component stops (quote e ++ rest) =
      (findClosing '"' '"' rest).map fun (content, rest) => (e ++ '"' :: content, rest) := by
  have heq : lastOr '"' e = '\\' := by rw [lastOr, hlast]; rfl
  rw [quote_of_needsQuotes hquotes, cons_append, append_assoc, component, if_pos (.inl rfl),
    singleton_append, h.findClosing, heq, findClosing, if_neg (by simp), Option.map_map]
  rfl

/-! ## Escaped strings and what they stand for -/

section

variable (h : Escaped special s e)
include h

theorem Escaped.eq_nil_iff : e = [] ↔ s = [] := by
  cases h with
  | nil => simp
  | plain => simp
  | escape hescape => simp [hescape.ne_nil]

theorem Escaped.mem_separator {x : Char} (hx : x ∈ separators) : x ∈ e ↔ x ∈ s := by
  have hclass : ∀ x ∈ separators, x.isAlphanum = false ∧ x ≠ '\\' := by simp [separators]
  induction h with
  | nil => rfl
  | plain _ _ ih => simp only [mem_cons, ih]
  | @escape u d t s e hescape _ ih =>
    obtain ⟨hd, hu⟩ := hescape.not_separator x hx
    have ht : x ∉ t := fun hmem => ne_of_isAlphanum (hescape.tail x hmem) (hclass x hx).1 rfl
    simp [hd, hu, ht, (hclass x hx).2, ih]

theorem Escaped.needsQuotes_iff : NeedsQuotes e ↔ NeedsQuotes s :=
  exists_congr fun _ => and_congr_right fun hx => h.mem_separator hx

theorem Escaped.head_minus : e.head? = some '-' ↔ s.head? = some '-' := by
  cases h with
  | nil => rfl
  | plain => rfl
  | @escape u d t s e hescape _ =>
    obtain ⟨c, u', rfl⟩ := exists_cons_of_ne_nil hescape.ne_nil
    have hminus := hescape.not_minus
    simp only [head?_cons, cons_append] at hminus ⊢
    exact iff_of_false (by decide) hminus

theorem Escaped.last_backslash : e.getLast? = some '\\' ↔ s.getLast? = some '\\' := by
  induction h with
  | nil => rfl
  | @plain c s e hc h ih =>
    by_cases hnil : s = []
    · have he : e = [] := h.eq_nil_iff.mpr hnil
      subst hnil he
      rfl
    · have he : e ≠ [] := fun he => hnil (h.eq_nil_iff.mp he)
      rw [getLast?_cons_of_ne_nil he, getLast?_cons_of_ne_nil hnil, ih]
  | @escape u d t s e hescape h ih =>
    by_cases hnil : s = []
    · have he : e = [] := h.eq_nil_iff.mpr hnil
      subst hnil he
      rw [append_nil, append_nil, hescape.backslash]
      by_cases ht : t = []
      · subst ht
        simp
      · have hd : d ≠ '\\' := fun hd => ht (hescape.backslash_tail hd)
        refine iff_of_false (fun hlast => ?_) hd
        rw [getLast?_cons_of_ne_nil (cons_ne_nil d t), getLast?_cons_of_ne_nil ht] at hlast
        exact ne_of_isAlphanum (hescape.tail _ (mem_of_getLast? hlast)) (by decide) rfl
    · have he : e ≠ [] := fun he => hnil (h.eq_nil_iff.mp he)
      rw [getLast?_append_of_ne_nil _ hnil, ← ih, ← cons_append, ← cons_append,
        getLast?_append_of_ne_nil _ he]

end

/-! ## Identities -/

/-- The number of backslashes at the end of a string. -/
def trailing (s : Text) : Nat := (s.reverse.takeWhile (· = '\\')).length

theorem trailing_concat (s : Text) (c : Char) :
    trailing (s ++ [c]) = if c = '\\' then trailing s + 1 else 0 := by
  unfold trailing
  rw [reverse_append, reverse_singleton, singleton_append, takeWhile_cons]
  split_ifs with h h' h'
  · simp
  · simp at h
    exact absurd h h'
  · simp [h'] at h
  · rfl

theorem castInt_pos {n : Nat} (hn : n ≠ 0) (h : n < 2 ^ 31) : 0 < castInt n := by
  unfold castInt
  rw [Int.bmod_def]
  omega

theorem castInt_far {n : Nat} (h : 2 ^ 31 ≤ n) (hle : n ≤ 2 ^ 32) : ¬ 0 < castInt n := by
  unfold castInt
  rw [Int.bmod_def]
  omega

/-- The cast does no harm before position `2 ^ 31`. -/
theorem escapes_reverse {before : Text} (h : before.length < 2 ^ 31) :
    escapes before.reverse = trailing before := by
  unfold trailing
  rw [← length_reverse] at h
  generalize before.reverse = s at h
  induction s with
  | nil => rfl
  | cons c s ih =>
    have hpos := castInt_pos (Nat.succ_ne_zero s.length) h
    by_cases hc : c = '\\' <;> simp [escapes, hpos, hc, ih (Nat.lt_of_succ_lt h)]

/-- Behind it no backslash is counted. -/
theorem escapes_far {before : Text} (h : 2 ^ 31 ≤ before.length) (hle : before.length ≤ 2 ^ 32) :
    escapes before.reverse = 0 := by
  rw [← length_reverse] at h hle
  generalize before.reverse = s at h hle
  cases s with
  | nil => rfl
  | cons c s =>
    rw [escapes, if_neg fun hand => castInt_far h hle hand.1]

/-- The loop tells escaped slashes from others. -/
def Sees (s : Text) : Prop :=
  ∀ pre post, s = pre ++ '/' :: post → (escapes pre.reverse % 2 = 0 ↔ trailing pre % 2 = 0)

theorem sees_of_length {s : Text} (h : s.length ≤ 2 ^ 31) : Sees s := by
  rintro pre post rfl
  rw [escapes_reverse (by simp at h; omega)]

theorem findSlash_cons_of_not {before : Text} {c : Char}
    (hc : ¬ (c = '/' ∧ escapes before.reverse % 2 = 0))
    (s : Text) (slash : Option Nat) :
    findSlash before (c :: s) slash = findSlash (before ++ [c]) s slash := by
  exact if_neg hc

theorem findSlash_cons_of_ne {c : Char} (hc : c ≠ '/') (before s : Text) (slash : Option Nat) :
    findSlash before (c :: s) slash = findSlash (before ++ [c]) s slash :=
  findSlash_cons_of_not (fun h => hc h.1) s slash

theorem findSlash_alphanum {t : Text} (ht : ∀ c ∈ t, c.isAlphanum = true) (before rest : Text)
    (slash : Option Nat) : findSlash before (t ++ rest) slash =
      findSlash (before ++ t) rest slash := by
  induction t generalizing before with
  | nil => simp
  | cons c t ih =>
    have hc := ht c mem_cons_self
    rw [cons_append, findSlash_cons_of_ne (ne_of_isAlphanum hc (by decide)),
      ih fun d hd => ht d (mem_cons_of_mem _ hd)]
    simp

theorem trailing_alphanum {t : Text} (ht : ∀ c ∈ t, c.isAlphanum = true) {before : Text}
    (hbefore : trailing before % 2 = 0) : trailing (before ++ t) % 2 = 0 := by
  rcases eq_nil_or_concat t with rfl | ⟨t, c, rfl⟩
  · simpa using hbefore
  · have hc := ht c (by simp)
    rw [concat_eq_append, ← append_assoc, trailing_concat,
      if_neg (ne_of_isAlphanum hc (by decide))]

/-- An escaped string has an even number of backslashes at its end. -/
theorem trailing_escaped {special s e : Text} (before : Text) (h : Escaped special s e)
    (hbefore : trailing before % 2 = 0) : trailing (before ++ e) % 2 = 0 := by
  induction h generalizing before with
  | nil => simpa using hbefore
  | @plain c s e hc _ ih =>
    rw [append_cons]
    exact ih _ (by rw [trailing_concat, if_neg hc.not_backslash])
  | @escape u d t s e hescape _ ih =>
    have hnext : trailing (before ++ ['\\'] ++ [d]) % 2 = 0 := by
      rw [trailing_concat, trailing_concat, if_pos rfl]
      split_ifs <;> omega
    rw [append_cons, append_cons, ← append_assoc]
    exact ih _ (trailing_alphanum hescape.tail hnext)

/-- No slash in an escaped string is taken for the separator. -/
theorem findSlash_escaped {s e rest : Text} (before : Text) (h : Escaped ['/'] s e)
    (hsees : Sees (before ++ (e ++ rest))) (hbefore : trailing before % 2 = 0)
    (slash : Option Nat) :
    findSlash before (e ++ rest) slash = findSlash (before ++ e) rest slash := by
  induction h generalizing before with
  | nil => simp
  | @plain c s e hc _ ih =>
    have hslash : c ≠ '/' := fun h => hc.not_special (h ▸ mem_cons_self)
    rw [cons_append, findSlash_cons_of_ne hslash, ih _ (by simpa using hsees)]
    · simp
    · rw [trailing_concat, if_neg hc.not_backslash]
  | @escape u d t s e hescape _ ih =>
    have hsecond : findSlash (before ++ ['\\']) (d :: (t ++ (e ++ rest))) slash =
        findSlash (before ++ ['\\'] ++ [d]) (t ++ (e ++ rest)) slash := by
      refine findSlash_cons_of_not ?_ _ _
      -- the slash of an escape sequence has an odd number of backslashes before it
      rintro ⟨rfl, heven⟩
      rw [hsees (before ++ ['\\']) (t ++ (e ++ rest)) (by simp), trailing_concat, if_pos rfl]
        at heven
      omega
    have hnext : trailing (before ++ ['\\'] ++ [d]) % 2 = 0 := by
      rw [trailing_concat, trailing_concat, if_pos rfl]
      split_ifs <;> omega
    rw [cons_append, cons_append, append_assoc, findSlash_cons_of_ne (by decide), hsecond,
      findSlash_alphanum hescape.tail,
      ih _ (by simpa using hsees) (trailing_alphanum hescape.tail hnext)]
    simp

theorem findSlash_some {before s : Text} {k : Nat} {slash : Option Nat}
    (h : findSlash before s (some k) = .ok slash) : slash = some k := by
  induction s generalizing before with
  | nil =>
    cases h
    rfl
  | cons c s ih =>
    by_cases hc : c = '/' ∧ escapes before.reverse % 2 = 0
    · rw [findSlash, if_pos hc] at h
      cases h
    · rw [findSlash_cons_of_not hc] at h
      exact ih h

theorem findSlash_none {before s : Text} {k : Nat}
    (h : findSlash before s none = .ok (some k)) : before.length ≤ k := by
  induction s generalizing before with
  | nil => cases h
  | cons c s ih =>
    by_cases hc : c = '/' ∧ escapes before.reverse % 2 = 0
    · rw [findSlash, if_pos hc] at h
      obtain rfl : k = before.length := by simpa using findSlash_some h
      exact le_rfl
    · rw [findSlash_cons_of_not hc] at h
      have hle := ih h
      simp at hle
      omega

/-- The separator is the only slash that the loop takes for one. -/
theorem findSlash_only {before s pre post : Text} {slash slash' : Option Nat}
    (h : findSlash before s slash = .ok slash') (hs : s = pre ++ '/' :: post)
    (heven : escapes (before ++ pre).reverse % 2 = 0) :
    slash = none ∧ slash' = some (before ++ pre).length := by
  induction s generalizing before pre slash with
  | nil => simp at hs
  | cons c s ih =>
    cases pre with
    | nil =>
      obtain ⟨rfl, rfl⟩ := cons_eq_cons.mp hs
      rw [append_nil] at heven ⊢
      cases slash with
      | none =>
        rw [findSlash, if_pos ⟨rfl, heven⟩] at h
        exact ⟨rfl, findSlash_some h⟩
      | some k =>
        rw [findSlash, if_pos ⟨rfl, heven⟩] at h
        cases h
    | cons d pre =>
      obtain ⟨rfl, rfl⟩ := cons_eq_cons.mp hs
      rw [append_cons] at heven ⊢
      by_cases hc : c = '/' ∧ escapes before.reverse % 2 = 0
      · cases slash with
        | none =>
          rw [findSlash, if_pos hc] at h
          cases (ih h rfl heven).1
        | some k =>
          rw [findSlash, if_pos hc] at h
          cases h
      · rw [findSlash_cons_of_not hc] at h
        exact ih h rfl heven

theorem checkIdentity_eq_ok_iff {ident : Identity} :
    checkIdentity ident = .ok () ↔ ident.name ≠ [] := by
  unfold checkIdentity
  split_ifs with h <;> simp [h]

theorem stringToIdentity_eq_ok_iff {s : Text} {ident : Identity} :
    stringToIdentity s = .ok ident ↔ ident.name ≠ [] ∧
      ((findSlash [] s none = .ok none ∧ unescapeString s ['/'] = .ok ident.name ∧
          ident.category = []) ∨
        ∃ k, findSlash [] s none = .ok (some k) ∧
          unescapeString (s.take k) ['/'] = .ok ident.category ∧
          unescapeString (s.drop (k + 1)) ['/'] = .ok ident.name) := by
  have hsplit : ∀ slash, splitIdentity s slash = .ok ident ↔
      (slash = none ∧ unescapeString s ['/'] = .ok ident.name ∧ ident.category = []) ∨
        ∃ k, slash = some k ∧ unescapeString (s.take k) ['/'] = .ok ident.category ∧
          unescapeString (s.drop (k + 1)) ['/'] = .ok ident.name := by
    intro slash
    obtain ⟨name, category⟩ := ident
    cases slash with
    | none =>
      simp [splitIdentity, Misc.bind_eq_ok_iff, Misc.mapError_eq_ok_iff, pure, Except.pure,
        @eq_comm _ [] category]
    | some k =>
      simp [splitIdentity, Misc.bind_eq_ok_iff, Misc.mapError_eq_ok_iff, pure, Except.pure]
  have hcheck : ∀ read : Identity, (checkIdentity read >>= fun _ => pure read) = .ok ident ↔
      read = ident ∧ ident.name ≠ [] := by
    intro read
    rw [Misc.bind_eq_ok_iff]
    constructor
    · rintro ⟨_, hname, hread⟩
      cases hread
      exact ⟨rfl, checkIdentity_eq_ok_iff.mp hname⟩
    · rintro ⟨rfl, hname⟩
      exact ⟨(), checkIdentity_eq_ok_iff.mpr hname, rfl⟩
  simp only [stringToIdentity, Misc.bind_eq_ok_iff, hcheck]
  constructor
  · rintro ⟨slash, hslash, _, hread, rfl, hname⟩
    refine ⟨hname, ?_⟩
    rcases (hsplit slash).mp hread with ⟨rfl, hparts⟩ | ⟨k, rfl, hparts⟩
    · exact .inl ⟨hslash, hparts⟩
    · exact .inr ⟨k, hslash, hparts⟩
  · rintro ⟨hname, ⟨hslash, hread⟩ | ⟨k, hslash, hread⟩⟩
    · exact ⟨none, hslash, ident, (hsplit none).mpr (.inl ⟨rfl, hread⟩), rfl, hname⟩
    · exact ⟨some k, hslash, ident, (hsplit (some k)).mpr (.inr ⟨k, rfl, hread⟩), rfl, hname⟩

/-- The string of an identity. -/
inductive IdentityText (ident : Identity) : Text → Prop
  | name {e : Text} (hcategory : ident.category = []) (h : Escaped ['/'] ident.name e) :
      IdentityText ident e
  | both {e e' : Text} (hcategory : ident.category ≠ []) (h : Escaped ['/'] ident.category e)
      (h' : Escaped ['/'] ident.name e') : IdentityText ident (e ++ '/' :: e')

theorem identityToString_spec (ident : Identity) (hne : ident.name ≠ [])
    (hname : ValidUTF8 ident.name) (hcategory : ValidUTF8 ident.category) (mode : ToStringMode) :
    ∃ id, identityToString ident mode = .ok id ∧ IdentityText ident id := by
  have hspecial : ∀ c ∈ ['/'], c = '/' := by simp
  obtain ⟨e', hname, he'⟩ := escapeString_spec hspecial hname mode
  have hcheck := checkIdentity_eq_ok_iff.mpr hne
  by_cases hnil : ident.category = []
  · refine ⟨e', ?_, .name hnil he'⟩
    simp [identityToString, hcheck, hname, hnil, bind, Except.bind, Except.mapError, pure,
      Except.pure]
  · obtain ⟨e, hcategory, he⟩ := escapeString_spec hspecial hcategory mode
    refine ⟨e ++ '/' :: e', ?_, .both hnil he he'⟩
    simp [identityToString, hcheck, hname, hcategory, hnil, bind, Except.bind,
      Except.mapError, pure, Except.pure]

namespace IdentityText

variable {ident : Identity} {id : Text}

section

variable (h : IdentityText ident id)
include h

theorem shape : Shape id := by
  cases h with
  | name _ h => exact h.shape
  | both _ h h' =>
    exact h.shape.append (.plain (by decide) (by decide) (by decide) h'.shape)

theorem ne_nil (hne : ident.name ≠ []) : id ≠ [] := by
  cases h with
  | name _ h => exact fun hnil => hne (h.eq_nil_iff.mp hnil)
  | both => simp

theorem needsQuotes_iff : NeedsQuotes id ↔ NeedsQuotes ident.name ∨ NeedsQuotes ident.category := by
  cases h with
  | name hcategory h => rw [h.needsQuotes_iff, hcategory, or_iff_left (by simp [NeedsQuotes])]
  | @both e e' _ h h' =>
    have hslash : '/' ∉ separators := by decide
    rw [← h.needsQuotes_iff, ← h'.needsQuotes_iff, or_comm]
    simp only [NeedsQuotes, mem_append, mem_cons]
    constructor
    · rintro ⟨c, hc, hmem | rfl | hmem⟩
      · exact .inl ⟨c, hc, hmem⟩
      · exact absurd hc hslash
      · exact .inr ⟨c, hc, hmem⟩
    · rintro (⟨c, hc, hmem⟩ | ⟨c, hc, hmem⟩)
      · exact ⟨c, hc, .inl hmem⟩
      · exact ⟨c, hc, .inr (.inr hmem)⟩

theorem last_backslash (hne : ident.name ≠ []) :
    id.getLast? = some '\\' ↔ ident.name.getLast? = some '\\' := by
  cases h with
  | name _ h => exact h.last_backslash
  | both _ _ h' =>
    have he' := fun hnil => hne (h'.eq_nil_iff.mp hnil)
    rw [getLast?_append_of_ne_nil _ (cons_ne_nil _ _), getLast?_cons_of_ne_nil he',
      h'.last_backslash]

/-- What the search for the separator finds in the string of an identity, whatever comes behind
    it. -/
theorem findSlash {rest : Text} (hsees : Sees (id ++ rest)) :
    (ident.category = [] ∧ Escaped ['/'] ident.name id ∧
        Proxy.findSlash [] (id ++ rest) none = Proxy.findSlash id rest none) ∨
      ∃ e e', id = e ++ '/' :: e' ∧ Escaped ['/'] ident.category e ∧ Escaped ['/'] ident.name e' ∧
        Proxy.findSlash [] (id ++ rest) none = Proxy.findSlash id rest (some e.length) := by
  cases h with
  | name hcategory h =>
    exact .inl ⟨hcategory, h, findSlash_escaped [] h hsees rfl none⟩
  | @both e e' _ h h' =>
    rw [append_assoc] at hsees
    have hsearch := findSlash_escaped [] h hsees rfl none
    have hafter : trailing (e ++ ['/']) % 2 = 0 := by rw [trailing_concat, if_neg (by decide)]
    have hsearch' := findSlash_escaped (e ++ ['/']) h' (by simpa using hsees) hafter
      (some e.length)
    have heven := (hsees e (e' ++ rest) rfl).mpr (trailing_escaped [] h rfl)
    refine .inr ⟨e, e', rfl, h, h', ?_⟩
    rw [append_assoc, hsearch, cons_append, nil_append, Proxy.findSlash,
      if_pos ⟨rfl, heven⟩, hsearch', append_assoc]
    rfl

/-- The string of an identity stands for the identity. -/
theorem read (hne : ident.name ≠ []) (hsees : Sees id) : stringToIdentity id = .ok ident := by
  have hspecial : ∀ c ∈ ['/'], c = '/' := by simp
  refine stringToIdentity_eq_ok_iff.mpr ⟨hne, ?_⟩
  rw [← append_nil id] at hsees
  rcases h.findSlash hsees with ⟨hcategory, hname, hslash⟩ | ⟨e, e', rfl, hcategory, hname, hslash⟩
  · rw [append_nil] at hslash
    exact .inl ⟨hslash, unescapeString_escaped hspecial hname, hcategory⟩
  · rw [append_nil] at hslash
    refine .inr ⟨e.length, hslash, ?_, ?_⟩
    · rw [take_left]
      exact unescapeString_escaped hspecial hcategory
    · have hdrop : (e ++ '/' :: e').drop (e.length + 1) = e' := by simp
      rw [hdrop]
      exact unescapeString_escaped hspecial hname

/-- With a quote and more text behind it, it stands for something else. -/
theorem misled {rest : Text} (hsees : Sees (id ++ '"' :: rest)) :
    stringToIdentity (id ++ '"' :: rest) ≠ .ok ident := by
  have hspecial : ∀ c ∈ ['/'], c = '/' := by simp
  -- a name that is read from an escaped name with a quote behind it is longer
  have hlonger : ∀ {s e : Text}, Escaped ['/'] s e →
      unescapeString (e ++ '"' :: rest) ['/'] ≠ .ok s := by
    intro s e he hread
    obtain ⟨t, heq, -⟩ := unescapeString_quote hspecial he hread
    simpa using congrArg length heq
  intro hread
  obtain ⟨-, hread⟩ := stringToIdentity_eq_ok_iff.mp hread
  rcases h.findSlash hsees with ⟨hcategory, hname, hslash⟩ | ⟨e, e', rfl, hcategory, hname, hslash⟩
  · rcases hread with ⟨-, hread, -⟩ | ⟨k, hk, hread, -⟩
    · exact hlonger hname hread
    · -- the category has what stands before the quote
      rw [hslash, findSlash_cons_of_ne (by decide)] at hk
      have hle := findSlash_none hk
      simp only [length_append, length_singleton] at hle
      obtain ⟨n, rfl⟩ := Nat.exists_eq_add_of_le hle
      rw [Nat.add_assoc, Nat.add_comm 1 n, take_length_add_append, take_succ_cons, hcategory]
        at hread
      obtain ⟨t, heq, -⟩ := unescapeString_quote hspecial hname hread
      simp at heq
  · rcases hread with ⟨hk, -⟩ | ⟨k, hk, -, hread⟩
    · rw [hslash] at hk
      cases findSlash_some hk
    · rw [hslash] at hk
      obtain rfl : k = e.length := by simpa using findSlash_some hk
      have hdrop : (e ++ '/' :: e' ++ '"' :: rest).drop (e.length + 1) =
          e' ++ '"' :: rest := by simp
      rw [hdrop] at hread
      exact hlonger hname hread

/-- Up to `2 ^ 32` bytes, the identity is read from its string exactly if no slash from position
    `2 ^ 31` on is an escaped one. -/
theorem read_iff (hne : ident.name ≠ []) (hlength : id.length ≤ 2 ^ 32) :
    stringToIdentity id = .ok ident ↔
      ∀ pre post, id = pre ++ '/' :: post → 2 ^ 31 ≤ pre.length → trailing pre % 2 = 0 := by
  have hfar : ∀ pre post, id = pre ++ '/' :: post → 2 ^ 31 ≤ pre.length →
      escapes pre.reverse % 2 = 0 := by
    rintro pre post rfl hpre
    rw [escapes_far hpre (by simp at hlength; omega)]
  constructor
  · intro hread pre post hid hpre
    obtain ⟨-, hread⟩ := stringToIdentity_eq_ok_iff.mp hread
    -- the slash is taken for the separator
    have hsep : ∀ slash, Proxy.findSlash [] id none = .ok slash → slash = some pre.length :=
      fun slash h => (findSlash_only h hid (hfar pre post hid hpre)).2
    rcases hread with ⟨hslash, -⟩ | ⟨k, hslash, hcategory, -⟩
    · cases hsep _ hslash
    · obtain rfl : k = pre.length := by simpa using hsep _ hslash
      cases h with
      | name hnil h =>
        rw [hid, take_left, hnil] at hcategory
        have hpre' := unescapeString_eq_nil (by simp) hcategory
        simp [hpre'] at hpre
      | @both e e' _ h h' =>
        -- the separator is taken for one, too
        have heven := trailing_escaped [] h rfl
        have hseen : escapes e.reverse % 2 = 0 := by
          rcases Nat.lt_or_ge e.length (2 ^ 31) with he | he
          · rwa [escapes_reverse he]
          · exact hfar e e' rfl he
        have hlength' := (findSlash_only hslash rfl hseen).2
        have heq : e = pre := (append_inj hid (by simpa using hlength'.symm)).1
        exact heq ▸ heven
  · intro hslashes
    refine h.read hne fun pre post hid => ?_
    rcases Nat.lt_or_ge pre.length (2 ^ 31) with hpre | hpre
    · rw [escapes_reverse hpre]
    · exact iff_of_true (hfar pre post hid hpre) (hslashes pre post hid hpre)

end

end IdentityText

/-- An identity is read back from its string exactly if the string has no escaped slash from
    position `2 ^ 31` on. Every string is read back from its escaped form. -/
theorem identity_read_back_iff (mode : ToStringMode) :
    (∀ ident : Identity, ident.name ≠ [] → ValidUTF8 ident.name → ValidUTF8 ident.category →
      ∃ id, identityToString ident mode = .ok id ∧
        (id.length ≤ 2 ^ 32 → (stringToIdentity id = .ok ident ↔
          ∀ pre post, id = pre ++ '/' :: post → 2 ^ 31 ≤ pre.length → trailing pre % 2 = 0))) ∧
    ∀ special ∈ [[], ['/']], ∀ s, ValidUTF8 s →
      (escapeString s special mode >>= fun e => unescapeString e special) = .ok s := by
  constructor
  · intro ident hne hname hcategory
    obtain ⟨id, hid, htext⟩ := identityToString_spec _ hne hname hcategory mode
    exact ⟨id, hid, htext.read_iff hne⟩
  · intro special hmem s hs
    have hspecial : ∀ c ∈ special, c = '/' := by
      rcases mem_pair.mp hmem with rfl | rfl <;> simp
    obtain ⟨e, he, hescaped⟩ := escapeString_spec hspecial hs mode
    rw [he]
    exact unescapeString_escaped hspecial hescaped

/-- The category `a/` and the name `b\`. -/
theorem identity_read_back_iff_slash :
    identityToString ⟨['b', '\\'], ['a', '/']⟩ .ascii = .ok "a\\//b\\\\".toList ∧
      stringToIdentity "a\\//b\\\\".toList = .ok ⟨['b', '\\'], ['a', '/']⟩ := by
  have hwritten : identityToString ⟨['b', '\\'], ['a', '/']⟩ .ascii = .ok "a\\//b\\\\".toList := by
    decide
  obtain ⟨id, hid, hread⟩ := (identity_read_back_iff .ascii).1 ⟨['b', '\\'], ['a', '/']⟩ (by decide)
    ⟨['b', '\\'], by decide⟩ ⟨['a', '/'], by decide⟩
  cases hwritten.symm.trans hid
  refine ⟨hwritten, (hread (by decide)).mpr fun pre post hpre hlength => ?_⟩
  have := congrArg length hpre
  simp at this
  omega

theorem identityToString_slash (n : Nat) :
    identityToString ⟨replicate n 'a' ++ ['/'], []⟩ .unicode =
      .ok (replicate n 'a' ++ ['\\', '/']) := by
  have hloop : ∀ n, escapeLoop ['/'] .unicode (n + 1) (replicate n 'a' ++ ['/']) =
      .ok (replicate n 'a' ++ ['\\', '/']) := by
    intro n
    induction n with
    | zero => decide
    | succ n ih => rw [replicate_succ, cons_append, escapeLoop_cons (e := ['a']) rfl, ih]; rfl
  have hescape : escapeString (replicate n 'a' ++ ['/']) ['/'] .unicode =
      .ok (replicate n 'a' ++ ['\\', '/']) := by
    have hlength : (replicate n 'a' ++ ['/']).length = n + 1 := by simp
    rw [escapeString, checkSpecial_slash (by simp), hlength]
    exact hloop n
  simp [identityToString, checkIdentity, hescape, bind, Except.bind, Except.mapError, pure,
    Except.pure]

theorem slash_not_read_back {n : Nat} (hn : n + 1 = 2 ^ 31) :
    stringToIdentity (replicate n 'a' ++ ['\\', '/']) ≠ .ok ⟨replicate n 'a' ++ ['/'], []⟩ := by
  have hutf8 : ∀ m, replicate m 'a' ++ ['/'] = (replicate m 'a' ++ ['/']).flatMap utf8 := by
    intro m
    induction m with
    | zero => decide
    | succ m ih => rw [replicate_succ, cons_append, flatMap_cons, ← ih]; rfl
  have htrailing : ∀ m, trailing (replicate m 'a') = 0 := by
    intro m
    cases m with
    | zero => rfl
    | succ m => rw [replicate_succ', trailing_concat, if_neg (by decide)]
  obtain ⟨id, hid, htext⟩ := identityToString_spec ⟨replicate n 'a' ++ ['/'], []⟩ (by simp)
    ⟨_, hutf8 n⟩ ⟨[], rfl⟩ .unicode
  obtain rfl := Except.ok.inj ((identityToString_slash n).symm.trans hid)
  rw [ne_eq, htext.read_iff (by simp) (by simp; omega)]
  intro hslashes
  have heven := hslashes (replicate n 'a' ++ ['\\']) [] (by simp) (by simp; omega)
  rw [trailing_concat, if_pos rfl, htrailing] at heven
  omega

/-- A slash behind `2 ^ 31 - 1` other characters: its backslash is not counted, and what stands
    before it is taken for the category. -/
theorem longName_not_read_back :
    let ident : Identity := ⟨replicate (2 ^ 31 - 1) 'a' ++ ['/'], []⟩
    let id : Text := replicate (2 ^ 31 - 1) 'a' ++ ['\\', '/']
    identityToString ident .unicode = .ok id ∧ stringToIdentity id ≠ .ok ident :=
  ⟨identityToString_slash _, slash_not_read_back rfl⟩

end Ice.Proxy
