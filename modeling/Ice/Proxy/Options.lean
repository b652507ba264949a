import Ice.Proxy.Quotes

/-!
# The options of a proxy string

The options that `Reference::toString` writes, one after the other, and how the loop of
`ReferenceFactory::create` reads each of them.
-/

namespace Ice.Proxy

open Misc List

/-! ## Versions -/

theorem digits_toDigits (n : Nat) : Digits (Nat.toDigits 10 n) :=
  ⟨Nat.toDigits_ne_nil, fun _ hc => Nat.isDigit_of_mem_toDigits (by decide) (by decide) hc⟩

theorem decimal_toDigits (n : Nat) : decimal (Nat.toDigits 10 n) = n :=
  Nat.ofDigitChars_toDigits (by decide) (by decide)

theorem readInt_toDigits {n : Nat} (h : n < 256) :
    readInt (Nat.toDigits 10 n) = some ((n : Int), []) := by
  have hdigits := digits_toDigits n
  have hspace : ∀ c : Char, c.isDigit = true → isSpace c = false := by
    intro c hc
    refine decide_eq_false fun hmem => ?_
    have hnone : ∀ d ∈ [' ', '\t', '\n', '\x0b', '\x0c', '\r'], d.isDigit = false := by simp
    rw [hnone c hmem] at hc
    cases hc
  refine (readInt_eq_some_iff fun c hc => hspace c (hdigits.2 c hc)).mpr
    ⟨_, (append_nil _).symm, ?_, by simp, ?_⟩
  · have hplain := Numeral.plain hdigits
    rwa [decimal_toDigits] at hplain
  · unfold FitsInt
    omega

variable (v : Version)

/-- A version that is written is read back, but for the major version 0. -/
theorem stringToMajorMinor_toText :
    stringToMajorMinor v.toText = if v.major = 0 then .error .versionRange else .ok v := by
  have hdot : ∀ c ∈ Nat.toDigits 10 v.major.toNat, decide (c ≠ '.') = true := by
    intro c hc
    refine decide_eq_true ?_
    rintro rfl
    exact absurd ((digits_toDigits _).2 _ hc) (by decide)
  have htake : v.toText.takeWhile (· ≠ '.') = Nat.toDigits 10 v.major.toNat := by
    rw [Version.toText, takeWhile_append_of_pos hdot]
    simp
  have hdrop : v.toText.dropWhile (· ≠ '.') = '.' :: Nat.toDigits 10 v.minor.toNat := by
    rw [Version.toText, dropWhile_append_of_pos hdot]
    simp
  have hmajor := v.major.toNat_lt
  have hminor := v.minor.toNat_lt
  have hzero : v.major = 0 ↔ v.major.toNat = 0 := UInt8.toNat_inj.symm
  rw [stringToMajorMinor, hdrop]
  rw [htake, readInt_toDigits hmajor]
  dsimp only
  rw [readInt_toDigits hminor]
  dsimp only
  by_cases h : v.major = 0
  · have hrange : (v.major.toNat : Int) < 1 := by
      rw [hzero.mp h]
      decide
    rw [if_pos h, if_pos (.inl hrange)]
  · have hpos : v.major.toNat ≠ 0 := fun hnat => h (hzero.mpr hnat)
    rw [if_neg h, if_neg (by omega)]
    simp

theorem Version.mem_toText {v : Version} {c : Char} (hc : c ∈ v.toText) :
    c.isDigit = true ∨ c = '.' := by
  rcases mem_append.mp hc with hc | hc
  · exact .inl ((digits_toDigits _).2 c hc)
  · rcases mem_cons.mp hc with rfl | hc
    · exact .inr rfl
    · exact .inl ((digits_toDigits _).2 c hc)

theorem Version.ne_of_mem_toText {v : Version} {c d : Char} (hc : c ∈ v.toText)
    (hd : d.isDigit = false ∧ d ≠ '.') : c ≠ d := by
  rintro rfl
  rcases Version.mem_toText hc with h | h
  · rw [hd.1] at h
    cases h
  · exact hd.2 h

theorem shape_of_forall {e : Text} (h : ∀ c ∈ e, 32 ≤ c.toNat ∧ c ≠ '\\' ∧ c ≠ '"' ∧ c ≠ '\'') :
    Shape e := by
  induction e with
  | nil => exact .nil
  | cons c e ih =>
    obtain ⟨hprintable, hbackslash, hquote⟩ := h c mem_cons_self
    exact .plain hprintable hbackslash hquote (ih fun d hd => h d (mem_cons_of_mem _ hd))

theorem Version.shape_toText : Shape v.toText := by
  refine shape_of_forall fun c hc => ⟨?_, Version.ne_of_mem_toText hc (by decide),
    Version.ne_of_mem_toText hc (by decide), Version.ne_of_mem_toText hc (by decide)⟩
  rcases Version.mem_toText hc with h | rfl
  · simp only [Char.isDigit, Bool.and_eq_true, decide_eq_true_eq] at h
    have hle : (48 : Nat) ≤ c.toNat := UInt32.le_iff_toNat_le.mp h.1
    omega
  · decide

theorem Version.not_needsQuotes_toText : ¬ NeedsQuotes v.toText := by
  have hseparators : ∀ d ∈ separators, d.isDigit = false ∧ d ≠ '.' := by simp [separators]
  rintro ⟨c, hc, hmem⟩
  exact Version.ne_of_mem_toText hmem (hseparators c hc) rfl

theorem Version.toText_ne_nil : v.toText ≠ [] := by
  simp [Version.toText]

/-! ## One option -/

/-- An option with the escaped text of its argument. -/
structure Setting where
  option : Char
  argument : Option Text

/-- The argument as it is written. -/
def Setting.argumentText (x : Setting) : Text :=
  match x.argument with
  | none => []
  | some e => ' ' :: quote e

def Setting.toText (x : Setting) : Text := ' ' :: '-' :: x.option :: x.argumentText

/-- The parser finds the option and its argument. -/
structure Setting.Readable (x : Setting) : Prop where
  option : isWhiteOrSeparator x.option = false
  shape : ∀ e ∈ x.argument, Shape e ∧ e ≠ []
  closed : ∀ e ∈ x.argument, NeedsQuotes e → e.getLast? ≠ some '\\'
  not_minus : ∀ e ∈ x.argument, e.head? = some '-' → NeedsQuotes e

/-- What can stand behind an option: nothing, another option or a separator. -/
def Follows (rest : Text) : Prop := rest = [] ∨ ∃ c t, rest = ' ' :: c :: t ∧ (c = '-' ∨ c = '@')

theorem Setting.follows (x : Setting) (rest : Text) : Follows (x.toText ++ rest) :=
  .inr ⟨'-', x.option :: (x.argumentText ++ rest), rfl, .inl rfl⟩

/-- The first character of a component that is written. -/
theorem quote_eq_cons {e : Text} (h : Shape e) (hne : e ≠ []) :
    ∃ c t, quote e = c :: t ∧ isWhiteOrSeparator c = false ∧
      (c = '-' ↔ e.head? = some '-' ∧ ¬ NeedsQuotes e) := by
  by_cases hquotes : NeedsQuotes e
  · exact ⟨'"', _, quote_of_needsQuotes hquotes, by decide, by simp [hquotes]⟩
  · obtain ⟨c, t, rfl⟩ := exists_cons_of_ne_nil hne
    refine ⟨c, t, quote_of_not_needsQuotes hquotes, ?_, by simp [hquotes]⟩
    exact h.not_whiteOrSeparator hquotes c mem_cons_self

theorem isWhite_of_not_whiteOrSeparator {c : Char} (h : isWhiteOrSeparator c = false) :
    isWhite c = false := by
  simp [isWhiteOrSeparator, isWhite] at *
  tauto

theorem not_separator_of_not_whiteOrSeparator {c : Char} (h : isWhiteOrSeparator c = false) :
    c ≠ '@' ∧ c ≠ ':' := by
  simp [isWhiteOrSeparator] at *
  tauto

theorem optionArgument_space {option s : Text} {c : Char} (hc : isWhiteOrSeparator c = false)
    (hminus : c ≠ '-') : optionArgument option (' ' :: c :: s) =
      match component isWhiteOrSeparator (c :: s) with
      | none => .error (.mismatchedQuotes (some option))
      | some result => .ok result := by
  have hdrop : (' ' :: c :: s).dropWhile isWhite = c :: s := by
    rw [dropWhile_cons_of_pos (by decide),
      dropWhile_cons_of_neg (by simp [isWhite_of_not_whiteOrSeparator hc])]
  obtain ⟨hat, hcolon⟩ := not_separator_of_not_whiteOrSeparator hc
  rw [optionArgument, hdrop]
  exact if_pos ⟨hat, hcolon, hminus⟩

variable {rest : Text}

theorem optionArgument_none {option : Text} (h : Follows rest) :
    optionArgument option rest = .ok ([], rest) := by
  rcases h with rfl | ⟨c, t, rfl, hc⟩
  · rfl
  · have hwhite : isWhite c = false := by rcases hc with rfl | rfl <;> decide
    have hdrop : (' ' :: c :: t).dropWhile isWhite = c :: t := by
      rw [dropWhile_cons_of_pos (by decide), dropWhile_cons_of_neg (by simp [hwhite])]
    rw [optionArgument, hdrop]
    exact if_neg (by rcases hc with rfl | rfl <;> decide)

theorem Follows.head (h : Follows rest) : ∀ c ∈ rest.head?, isWhiteOrSeparator c = true := by
  rcases h with rfl | ⟨c, t, rfl, -⟩
  · simp
  · rintro _ ⟨⟩
    decide

theorem Setting.Readable.optionArgument {x : Setting} (h : x.Readable) (hrest : Follows rest)
    (option : Text) :
    optionArgument option (x.argumentText ++ rest) = .ok (x.argument.getD [], rest) := by
  unfold Setting.argumentText
  cases hargument : x.argument with
  | none => exact optionArgument_none hrest
  | some e =>
    obtain ⟨hshape, hne⟩ := h.shape e hargument
    obtain ⟨c, t, hquote, hc, hminus⟩ := quote_eq_cons hshape hne
    have hdash : c ≠ '-' := by
      intro hdash
      obtain ⟨hhead, hquotes⟩ := hminus.mp hdash
      exact hquotes (h.not_minus e hargument hhead)
    have hcomponent := component_quote (fun _ hc => hc) hshape hne (h.closed e hargument) hrest.head
    simp only [hquote, cons_append, Option.getD_some] at hcomponent ⊢
    rw [optionArgument_space hc hdash, hcomponent]

/-! ## The loop -/

theorem parseOptions_step (fuel : Nat) (o : Options) {x : Setting}
    (hoption : isWhiteOrSeparator x.option = false)
    (hrest : ∀ c ∈ (x.argumentText ++ rest).head?, isWhiteOrSeparator c = true) :
    parseOptions (fuel + 1) o (x.toText ++ rest) =
      optionArgument ['-', x.option] (x.argumentText ++ rest) >>= fun (argument, s) =>
        o.set x.option argument >>= fun o => parseOptions fuel o s := by
  have hdrop : (x.toText ++ rest).dropWhile isWhite = '-' :: x.option :: (x.argumentText ++ rest) :=
    rfl
  rw [parseOptions, hdrop]
  generalize x.argumentText ++ rest = tail at hrest ⊢
  have hgo : ∀ c ∈ ['-', x.option], (!isWhiteOrSeparator c) = true := by
    intro c hc
    rcases mem_pair.mp hc with rfl | rfl
    · decide
    · rw [hoption]
      rfl
  have hstop : tail.takeWhile (!isWhiteOrSeparator ·) = [] ∧
      tail.dropWhile (!isWhiteOrSeparator ·) = tail := by
    cases tail with
    | nil => exact ⟨rfl, rfl⟩
    | cons d s => simp [hrest d rfl]
  have hsplit : '-' :: x.option :: tail = ['-', x.option] ++ tail := rfl
  have htake : ('-' :: x.option :: tail).takeWhile (!isWhiteOrSeparator ·) = ['-', x.option] := by
    rw [hsplit, takeWhile_append_of_pos hgo, hstop.1]
    rfl
  have hskip : ('-' :: x.option :: tail).dropWhile (!isWhiteOrSeparator ·) = tail := by
    rw [hsplit, dropWhile_append_of_pos hgo, hstop.2]
  dsimp only
  rw [if_neg (by decide), htake, hskip]
  rfl

theorem Setting.argumentText_head (x : Setting) (hrest : Follows rest) :
    ∀ c ∈ (x.argumentText ++ rest).head?, isWhiteOrSeparator c = true := by
  unfold Setting.argumentText
  cases x.argument with
  | none => exact hrest.head
  | some e =>
    rintro _ ⟨⟩
    decide

/-- What can stand behind all options. -/
def Ends (rest : Text) : Prop := rest = [] ∨ ∃ t, rest = ' ' :: '@' :: t

theorem Ends.follows (h : Ends rest) : Follows rest := by
  rcases h with rfl | ⟨t, rfl⟩
  · exact .inl rfl
  · exact .inr ⟨'@', t, rfl, .inr rfl⟩

theorem parseOptions_ends (fuel : Nat) (o : Options) (h : Ends rest) :
    parseOptions (fuel + 1) o rest = .ok (o, rest.dropWhile isWhite) := by
  rcases h with rfl | ⟨t, rfl⟩
  · rfl
  · have hdrop : (' ' :: '@' :: t).dropWhile isWhite = '@' :: t := by
      rw [dropWhile_cons_of_pos (by decide), dropWhile_cons_of_neg (by decide)]
    rw [parseOptions, hdrop]
    exact if_pos (.inr rfl)

theorem follows_settings (settings : List Setting) (h : Ends rest) :
    Follows (settings.flatMap Setting.toText ++ rest) := by
  cases settings with
  | nil => exact h.follows
  | cons x settings =>
    rw [flatMap_cons, append_assoc]
    exact x.follows _

/-- The options are set one after the other. -/
def Options.setAll (o : Options) (settings : List Setting) : Except ParseException Options :=
  settings.foldlM (fun o x => o.set x.option (x.argument.getD [])) o

theorem parseOptions_settings {settings : List Setting} (h : ∀ x ∈ settings, x.Readable)
    (hrest : Ends rest) {fuel : Nat} (hfuel : settings.length < fuel) (o : Options) :
    parseOptions fuel o (settings.flatMap Setting.toText ++ rest) =
      o.setAll settings >>= fun o => .ok (o, rest.dropWhile isWhite) := by
  induction settings generalizing fuel o with
  | nil =>
    obtain ⟨fuel, rfl⟩ := Nat.exists_eq_add_of_lt hfuel
    exact parseOptions_ends _ o hrest
  | cons x settings ih =>
    obtain ⟨fuel, rfl⟩ : ∃ n, fuel = n + 1 := ⟨fuel - 1, by simp at hfuel; omega⟩
    have hfollows := follows_settings settings hrest
    have ih := ih (fun y hy => h y (mem_cons_of_mem _ hy)) (by simpa using hfuel)
    have hx := h x mem_cons_self
    rw [flatMap_cons, append_assoc,
      parseOptions_step fuel o hx.option (x.argumentText_head hfollows), hx.optionArgument hfollows]
    change o.set x.option (x.argument.getD []) >>= (fun o => parseOptions fuel o _) = _
    simp only [ih, Options.setAll, foldlM_cons, bind_assoc]

/-! ## What is left behind the options -/

theorem findClosing_eq {q last : Char} {s content : Text}
    (h : findClosing q last s = some (content, rest)) : s = content ++ q :: rest := by
  induction s generalizing last content with
  | nil => cases h
  | cons c s ih =>
    rw [findClosing] at h
    split_ifs at h with hc
    · cases h
      rw [hc.1, nil_append]
    · obtain ⟨⟨content', rest'⟩, hclosing, heq⟩ := Option.map_eq_some_iff.mp h
      cases heq
      rw [ih hclosing, cons_append]

theorem component_suffix {stops : Char → Bool} {s content : Text}
    (h : component stops s = some (content, rest)) : rest <:+ s ∧ content.length ≤ s.length := by
  cases s with
  | nil =>
    cases h
    exact ⟨suffix_refl _, le_rfl⟩
  | cons c s =>
    rw [component] at h
    split_ifs at h with hc
    · refine ⟨⟨c :: (content ++ [c]), ?_⟩, ?_⟩ <;> simp [findClosing_eq h]
      omega
    · cases h
      exact ⟨dropWhile_suffix _, (takeWhile_sublist _).length_le⟩

theorem optionArgument_suffix {option s argument : Text}
    (h : optionArgument option s = .ok (argument, rest)) :
    rest <:+ s := by
  unfold optionArgument at h
  split at h
  · cases h
    exact suffix_refl _
  · rename_i c t hdrop
    split_ifs at h with hc
    · split at h
      · cases h
      · rename_i result hcomponent
        cases h
        exact (component_suffix hcomponent).1.trans (hdrop ▸ dropWhile_suffix _)
    · cases h
      exact suffix_refl _

/-- The loop stops at the end of the string or at a separator. -/
theorem parseOptions_suffix {fuel : Nat} {o o' : Options} {s : Text} (hfuel : s.length < fuel)
    (h : parseOptions fuel o s = .ok (o', rest)) :
    rest <:+ s ∧ ∀ c ∈ rest.head?, c = ':' ∨ c = '@' := by
  induction fuel generalizing o s with
  | zero => omega
  | succ fuel ih =>
    have hsuffix : s.dropWhile isWhite <:+ s := dropWhile_suffix _
    rw [parseOptions] at h
    split at h
    · cases h
      exact ⟨nil_suffix, by simp⟩
    · rename_i c t hdrop
      rw [hdrop] at hsuffix
      split_ifs at h with hc
      · cases h
        exact ⟨hsuffix, by rintro _ ⟨⟩; exact hc⟩
      · split at h
        · rename_i option hoption
          obtain ⟨⟨argument, s'⟩, hargument, h⟩ := bind_eq_ok_iff.mp h
          obtain ⟨o1, -, h⟩ := bind_eq_ok_iff.mp h
          -- the option itself is consumed
          have hlength : s'.length < s.length := by
            have hle := (optionArgument_suffix hargument).length_le
            have hsplit := congrArg length
              (takeWhile_append_dropWhile (p := (!isWhiteOrSeparator ·)) (l := c :: t))
            rw [length_append, hoption] at hsplit
            have := hsuffix.length_le
            simp only [length_cons, length_nil] at *
            omega
          obtain ⟨hrest, hhead⟩ := ih (by omega) h
          refine ⟨?_, hhead⟩
          exact hrest.trans ((optionArgument_suffix hargument).trans
            ((dropWhile_suffix _).trans hsuffix))
        · cases h

end Ice.Proxy
