import Ice.Proxy.StringUtil
import Ice.Misc.Scan

/-!
# Escaped strings

What `escapeString` writes for a valid UTF-8 string: a sequence of characters that stand for
themselves and of escape sequences, each of which `unescapeString` reads back whatever comes behind
it.
-/

namespace Ice.Proxy

open List

/-- The UTF-8 encoding of a character. -/
def utf8 (c : Char) : Text :=
  let k := c.toNat
  if k ≤ 0x7F then [Char.ofNat k]
  else if k ≤ 0x7FF then [Char.ofNat (k / 64 + 0xC0), Char.ofNat (k % 64 + 0x80)]
  else if k ≤ 0xFFFF then
    [Char.ofNat (k / 4096 + 0xE0), Char.ofNat (k / 64 % 64 + 0x80), Char.ofNat (k % 64 + 0x80)]
  else
    [Char.ofNat (k / 262144 + 0xF0), Char.ofNat (k / 4096 % 64 + 0x80),
      Char.ofNat (k / 64 % 64 + 0x80), Char.ofNat (k % 64 + 0x80)]

/-- A valid UTF-8 string. -/
def ValidUTF8 (s : Text) : Prop := ∃ cs : List Char, s = cs.flatMap utf8

/-- The characters that the parser of proxies takes for separators, apart from the white space that
    is escaped. -/
def separators : List Char := [' ', ':', '@']

/-- A character that stands for itself in an escaped string. -/
structure Plain (special : Text) (c : Char) : Prop where
  printable : 32 ≤ c.toNat
  not_delete : c.toNat ≠ 127
  not_backslash : c ≠ '\\'
  not_quote : c ≠ '"' ∧ c ≠ '\''
  not_special : c ∉ special

/-- The escape sequence of a backslash, `d` and `t`, for the bytes `u`. -/
structure IsEscape (special u : Text) (d : Char) (t : Text) : Prop where
  decode : ∀ rest, decodeEscape special d (t ++ rest) = .ok (u, rest)
  tail : ∀ c ∈ t, c.isAlphanum = true
  not_white : d ∉ ['\t', '\r', '\n']
  not_separator : ∀ c ∈ separators, c ≠ d ∧ c ∉ u
  ne_nil : u ≠ []
  not_minus : u.head? ≠ some '-'
  backslash : u.getLast? = some '\\' ↔ d = '\\'
  backslash_tail : d = '\\' → t = []

/-- An escaped string. -/
inductive Escaped (special : Text) : Text → Text → Prop
  | nil : Escaped special [] []
  | plain {c : Char} {s e : Text} (hc : Plain special c) (h : Escaped special s e) :
      Escaped special (c :: s) (c :: e)
  | escape {u : Text} {d : Char} {t s e : Text} (hescape : IsEscape special u d t)
      (h : Escaped special s e) : Escaped special (u ++ s) ('\\' :: d :: (t ++ e))

/-! ## Code points -/

theorem toNat_ofNat {n : Nat} (h : n < 256) : (Char.ofNat n).toNat = n := by
  rw [Char.ofNat, dif_pos (.inl (by omega))]
  rfl

theorem isValid_toNat (c : Char) : c.toNat < 0xD800 ∨ 0xDFFF < c.toNat ∧ c.toNat < 0x110000 :=
  c.valid

theorem appendUTF8_toNat (c : Char) : appendUTF8 c.toNat = .ok (utf8 c) := by
  have hvalid := isValid_toNat c
  unfold appendUTF8 utf8
  rw [if_neg (by omega)]
  dsimp only
  split_ifs <;> first | rfl | omega

variable {c : Char}

theorem utf8_bytes (h : 128 ≤ c.toNat) : ∀ b ∈ utf8 c, 128 ≤ b.toNat ∧ b.toNat < 256 := by
  have hvalid := isValid_toNat c
  intro b hb
  unfold utf8 at hb
  dsimp only at hb
  split_ifs at hb
  · omega
  all_goals
    simp only [mem_cons, not_mem_nil, or_false] at hb
    rcases hb with rfl | rfl | rfl | rfl <;> rw [toNat_ofNat (by omega)] <;> omega

theorem addContinuationByte_ofNat {x : Nat} (hx : x < 64) (p : Text) (codePoint : Nat) :
    addContinuationByte (Char.ofNat (x + 0x80) :: p) codePoint = .ok (codePoint * 64 + x, p) := by
  rw [addContinuationByte, toNat_ofNat (by omega), if_neg (by omega)]
  congr 2
  omega

theorem readCodePoint_utf8 (h : 128 ≤ c.toNat) : ∃ b bs, utf8 c = b :: bs ∧ 128 ≤ b.toNat ∧
      ∀ p, readCodePoint b (bs ++ p) = .ok (c.toNat, p) := by
  have hvalid := isValid_toNat c
  unfold utf8
  dsimp only
  have hfirst {n : Nat} (hn : 128 ≤ n ∧ n < 256) : 128 ≤ (Char.ofNat n).toNat :=
    (toNat_ofNat hn.2).symm ▸ hn.1
  split_ifs with h1 h2 h3
  · omega
  · refine ⟨_, _, rfl, hfirst (by omega), fun p => ?_⟩
    rw [readCodePoint, toNat_ofNat (by omega), if_pos (by omega), cons_append,
      addContinuationByte_ofNat (by omega)]
    congr 2
    omega
  · refine ⟨_, _, rfl, hfirst (by omega), fun p => ?_⟩
    rw [readCodePoint, toNat_ofNat (by omega), if_neg (by omega), if_pos (by omega),
      cons_append, addContinuationByte_ofNat (by omega)]
    refine (addContinuationByte_ofNat (by omega) _ _).trans ?_
    congr 2
    omega
  · refine ⟨_, _, rfl, hfirst (by omega), fun p => ?_⟩
    rw [readCodePoint, toNat_ofNat (by omega), if_neg (by omega), if_neg (by omega),
      if_pos (by omega), cons_append, addContinuationByte_ofNat (by omega)]
    dsimp only [bind, Except.bind]
    rw [cons_append, addContinuationByte_ofNat (by omega)]
    refine (addContinuationByte_ofNat (by omega) _ _).trans ?_
    congr 2
    omega

/-! ## Digits -/

theorem hexValue_toHexDigit {b : Nat} (h : b < 16) : hexValue (toHexDigit b) = some b := by
  interval_cases b <;> rfl

theorem octalValue_ofNat {b : Nat} (h : b < 8) : octalValue (Char.ofNat (48 + b)) = some b := by
  interval_cases b <;> rfl

theorem isAlphanum_toHexDigit {b : Nat} (h : b < 16) : (toHexDigit b).isAlphanum = true := by
  interval_cases b <;> rfl

theorem isAlphanum_octal {b : Nat} (h : b < 8) : (Char.ofNat (48 + b)).isAlphanum = true := by
  interval_cases b <;> rfl

theorem isAlphanum_hexDigits (codePoint n : Nat) :
    ∀ c ∈ hexDigits codePoint n, c.isAlphanum = true := by
  induction n with
  | zero => simp [hexDigits]
  | succ n ih =>
    intro c hc
    rcases mem_cons.mp hc with rfl | hc
    · exact isAlphanum_toHexDigit (Nat.mod_lt _ (by decide))
    · exact ih c hc

theorem readBase_hexDigits (codePoint n val : Nat) (rest : Text) :
    readBase 16 hexValue n val (hexDigits codePoint n ++ rest) =
      (val * 16 ^ n + codePoint % 16 ^ n, 0, rest) := by
  induction n generalizing val with
  | zero => simp [readBase, hexDigits, Nat.mod_one]
  | succ n ih =>
    rw [hexDigits, cons_append, readBase, hexValue_toHexDigit (Nat.mod_lt _ (by decide))]
    dsimp only
    rw [ih]
    have hsplit : codePoint % 16 ^ (n + 1) =
        codePoint / 16 ^ n % 16 * 16 ^ n + codePoint % 16 ^ n := by
      rw [Nat.pow_succ, Nat.mod_mul, Nat.add_comm, Nat.mul_comm]
    rw [hsplit, Nat.pow_succ]
    congr 1
    ring

theorem readBase_octal {i : Nat} (h : i < 256) (rest : Text) :
    readBase 8 octalValue 3 0 (octal i ++ rest) = (i, 0, rest) := by
  simp only [octal, cons_append, nil_append, readBase, octalValue_ofNat (b := i / 64) (by omega),
    octalValue_ofNat (b := i / 8 % 8) (by omega), octalValue_ofNat (b := i % 8) (by omega)]
  congr 1
  omega

/-! ## Escape sequences -/

variable {special : Text}

theorem isEscape_simple {d : Char} (hd : simpleUnescape d = some c)
    (hwhite : d ∉ ['\t', '\r', '\n'])
    (hseparator : ∀ x ∈ separators, x ≠ d ∧ x ∉ [c]) (hminus : c ≠ '-')
    (hbackslash : c = '\\' ↔ d = '\\') :
    IsEscape special [c] d [] where
  decode rest := by
    rw [decodeEscape, hd]
    rfl
  tail := by simp
  not_white := hwhite
  not_separator := hseparator
  ne_nil := cons_ne_nil c []
  not_minus := by simpa using hminus
  backslash := by simpa using hbackslash
  backslash_tail _ := rfl

/-- A byte that is no printable ASCII character is none of the characters that matter to the
    parser. -/
theorem ne_of_not_printable (hc : c.toNat < 32 ∨ 126 < c.toNat) {d : Char}
    (hd : 32 ≤ d.toNat ∧ d.toNat ≤ 126) :
    d ≠ c := by
  rintro rfl
  omega

theorem isEscape_of_not_printable {u : Text} {d : Char} {t : Text}
    (hdecode : ∀ rest, decodeEscape special d (t ++ rest) = .ok (u, rest))
    (htail : ∀ c ∈ d :: t, c.isAlphanum = true)
    (hne : u ≠ []) (hu : ∀ c ∈ u, c.toNat < 32 ∨ 126 < c.toNat) : IsEscape special u d t := by
  have hd : d.isAlphanum = true := htail d mem_cons_self
  have hnot : ∀ x, x.isAlphanum = false → x ≠ d := by
    rintro x hx rfl
    rw [hd] at hx
    cases hx
  have hbackslash : u.getLast? ≠ some '\\' := fun h =>
    ne_of_not_printable (hu _ (mem_of_getLast? h)) (by decide) rfl
  exact {
    decode := hdecode
    tail := fun c hc => htail c (mem_cons_of_mem _ hc)
    not_white := by
      simp only [mem_cons, not_mem_nil, or_false, not_or]
      exact ⟨(hnot _ (by decide)).symm, (hnot _ (by decide)).symm, (hnot _ (by decide)).symm⟩
    not_separator := by
      intro x hx
      have hprintable : ∀ x ∈ separators, x.isAlphanum = false ∧ 32 ≤ x.toNat ∧ x.toNat ≤ 126 := by
        simp [separators]
      exact ⟨hnot x (hprintable x hx).1, fun hmem =>
        ne_of_not_printable (hu x hmem) (hprintable x hx).2 rfl⟩
    ne_nil := hne
    not_minus := fun h => ne_of_not_printable (hu _ (mem_of_head? h)) (by decide) rfl
    backslash := iff_of_false hbackslash (hnot _ (by decide)).symm
    backslash_tail := fun h => absurd h (hnot _ (by decide)).symm }

theorem isEscape_octal (special : Text) (hbyte : c.toNat < 256)
    (hc : c.toNat < 32 ∨ 126 < c.toNat) :
    ∃ d t, octal c.toNat = d :: t ∧ IsEscape special [c] d t := by
  refine ⟨_, _, rfl, isEscape_of_not_printable (fun rest => ?_) ?_ (cons_ne_nil c [])
    (by simpa using hc)⟩
  · have hdigit := octalValue_ofNat (b := c.toNat / 64) (by omega)
    have hsimple : ∀ b, b < 8 → simpleUnescape (Char.ofNat (48 + b)) = none ∧
        ¬ (Char.ofNat (48 + b) = 'u' ∨ Char.ofNat (48 + b) = 'U') := by decide
    obtain ⟨hnone, hname⟩ := hsimple (c.toNat / 64) (by omega)
    have hread := readBase_octal hbyte rest
    rw [octal, cons_append] at hread
    rw [decodeEscape, hnone]
    have hsome : (octalValue (Char.ofNat (48 + c.toNat / 64))).isSome = true := by
      rw [hdigit]
      rfl
    rw [if_neg hname, if_pos hsome, hread]
    dsimp only
    rw [if_neg (by omega), Char.ofNat_toNat]
  · intro d hd
    simp only [mem_cons, not_mem_nil, or_false] at hd
    rcases hd with rfl | rfl | rfl <;> exact isAlphanum_octal (by omega)

/-- A code point below 0x10000 with four digits, any with eight. -/
theorem isEscape_name {u : Text} {d : Char} {n codePoint : Nat}
    (hd : d = 'u' ∧ n = 4 ∨ d = 'U' ∧ n = 8)
    (hsmall : codePoint < 16 ^ n) (happend : appendUTF8 codePoint = .ok u) (hne : u ≠ [])
    (hu : ∀ c ∈ u, c.toNat < 32 ∨ 126 < c.toNat) :
    IsEscape special u d (hexDigits codePoint n) := by
  refine isEscape_of_not_printable (fun rest => ?_) ?_ hne hu
  · have hread := readBase_hexDigits codePoint n 0 rest
    rw [Nat.zero_mul, Nat.zero_add, Nat.mod_eq_of_lt hsmall] at hread
    rcases hd with ⟨rfl, rfl⟩ | ⟨rfl, rfl⟩
    · simp only [decodeEscape, simpleUnescape, true_or, if_true, hread, happend]
      rfl
    · have hU : ('U' : Char) ≠ 'u' := by decide
      simp only [decodeEscape, simpleUnescape, or_true, if_true, if_neg hU, hread, happend]
      rfl
  · intro c hc
    rcases mem_cons.mp hc with rfl | hc
    · rcases hd with ⟨rfl, -⟩ | ⟨rfl, -⟩ <;> rfl
    · exact isAlphanum_hexDigits codePoint n c hc

/-! ## Escaping -/

/-- What is written for a byte is an escape sequence or the byte itself. -/
theorem Escaped.append {u : Text} {d : Char} {t s e : Text} (h : Escaped special s e)
    (hescape : IsEscape special u d t) : Escaped special (u ++ s) ('\\' :: d :: t ++ e) :=
  .escape hescape h

theorem eq_of_toNat_eq {n : Nat} (h : c.toNat = n) : c = Char.ofNat n := by
  rw [← h, Char.ofNat_toNat]

variable {mode : ToStringMode}

theorem simpleEscape_isEscape (special : Text) {e : Text} (h : simpleEscape mode c = some e) :
    ∃ d t, e = '\\' :: d :: t ∧ IsEscape special [c] d t := by
  have hoctal : ∀ n, n < 32 → c = Char.ofNat n → ∃ d t, '\\' :: octal n = '\\' :: d :: t ∧
      IsEscape special [c] d t := by
    intro n hn hc
    have htoNat : c.toNat = n := by rw [hc, toNat_ofNat (by omega)]
    obtain ⟨d, t, hdt, hescape⟩ :=
      isEscape_octal special (show c.toNat < 256 by omega) (by omega)
    exact ⟨d, t, by rw [← hdt, htoNat], hescape⟩
  unfold simpleEscape at h
  split at h <;> first
    | cases h; done
    | next hc =>
      obtain rfl := eq_of_toNat_eq hc
      first
        | (cases h; exact ⟨_, _, rfl, isEscape_simple rfl (by decide) (by simp [separators])
            (by decide) (by decide)⟩)
        | (split_ifs at h
           · cases h
             exact hoctal _ (by decide) rfl
           · cases h
             exact ⟨_, _, rfl, isEscape_simple rfl (by decide) (by simp [separators]) (by decide)
               (by decide)⟩)

theorem isEscape_slash (h : '/' ∈ special) : IsEscape special ['/'] '/' [] where
  decode rest := by
    have hnone : simpleUnescape '/' = none := rfl
    rw [decodeEscape, hnone]
    simp only [if_pos h]
    rfl
  tail := by simp
  not_white := by decide
  not_separator := by simp [separators]
  ne_nil := by decide
  not_minus := by decide
  backslash := by decide
  backslash_tail := by decide

theorem isEscape_control (special : Text) (hc : c.toNat < 32 ∨ c.toNat = 127) :
    IsEscape special [c] 'u' ['0', '0', toHexDigit (c.toNat / 16), toHexDigit (c.toNat % 16)] := by
  have hdigits : hexDigits c.toNat 4 =
      ['0', '0', toHexDigit (c.toNat / 16), toHexDigit (c.toNat % 16)] := by
    have hzero : c.toNat / 4096 % 16 = 0 ∧ c.toNat / 256 % 16 = 0 := by omega
    have hsmall : c.toNat / 16 % 16 = c.toNat / 16 := Nat.mod_eq_of_lt (by omega)
    simp [hexDigits, hzero, hsmall, toHexDigit]
  have happend : appendUTF8 c.toNat = .ok [c] := by
    rw [appendUTF8, if_neg (by omega), if_pos (by omega), Char.ofNat_toNat]
  rw [← hdigits]
  refine isEscape_name (.inl ⟨rfl, rfl⟩) ?_ happend (cons_ne_nil c []) ?_
  · have hpow : (16 : Nat) ^ 4 = 65536 := by decide
    omega
  · intro d hd
    obtain rfl := mem_singleton.mp hd
    omega

theorem plain_of_simpleEscape (hsimple : simpleEscape mode c = none) (hspecial : c ∉ special)
    (hprintable : 32 ≤ c.toNat) (hdelete : c.toNat ≠ 127) : Plain special c := by
  have hnone : ∀ d, simpleEscape mode d ≠ none → c ≠ d := by
    rintro d hd rfl
    exact hd hsimple
  exact ⟨hprintable, hdelete, hnone _ (by simp [simpleEscape]),
    ⟨hnone _ (by simp [simpleEscape]), hnone _ (by simp [simpleEscape])⟩, hspecial⟩

/-- What is written for a byte on its own. -/
theorem escapeChar_byte (hspecial : ∀ c ∈ special, c = '/') (hbyte : c.toNat < 256)
    (hmode : c.toNat < 128 ∨ mode ≠ .ascii) : ∃ e, (∀ p, escapeChar special mode c p = .ok (e, p)) ∧
      ∀ s t, Escaped special s t → Escaped special (c :: s) (e ++ t) := by
  cases hsimple : simpleEscape mode c with
  | some e =>
    obtain ⟨d, t, rfl, hescape⟩ := simpleEscape_isEscape special hsimple
    exact ⟨_, fun p => by rw [escapeChar, hsimple], fun s e h => h.append hescape⟩
  | none =>
    simp only [escapeChar, hsimple]
    by_cases hslash : c ∈ special
    · obtain rfl := hspecial c hslash
      simp only [if_pos hslash]
      exact ⟨_, fun p => rfl, fun s e h => h.append (isEscape_slash hslash)⟩
    simp only [if_neg hslash]
    by_cases hprintable : c.toNat < 32 ∨ c.toNat > 126
    · simp only [if_pos hprintable]
      by_cases hcompat : mode = .compat
      · obtain ⟨d, t, hdt, hescape⟩ := isEscape_octal special hbyte hprintable
        simp only [if_pos hcompat, hdt]
        exact ⟨_, fun p => rfl, fun s e h => h.append hescape⟩
      simp only [if_neg hcompat]
      by_cases hcontrol : c.toNat < 32 ∨ c.toNat = 127
      · simp only [if_pos hcontrol]
        exact ⟨_, fun p => rfl, fun s e h => h.append (isEscape_control special hcontrol)⟩
      have hascii : mode ≠ .ascii := by
        rcases hmode with hsmall | hmode
        · omega
        · exact hmode
      simp only [if_neg hcontrol, if_neg hascii]
      exact ⟨[c], fun p => rfl, fun s t h =>
        .plain (plain_of_simpleEscape hsimple hslash (by omega) (by omega)) h⟩
    · simp only [if_neg hprintable]
      exact ⟨[c], fun p => rfl, fun s t h =>
        .plain (plain_of_simpleEscape hsimple hslash (by omega) (by omega)) h⟩

/-- What is written for a character of several bytes in ASCII. -/
theorem escapeChar_name (hspecial : ∀ c ∈ special, c = '/') (hc : 128 ≤ c.toNat) :
    ∃ b bs e, utf8 c = b :: bs ∧ (∀ p, escapeChar special .ascii b (bs ++ p) = .ok (e, p)) ∧
      ∀ s t, Escaped special s t → Escaped special (utf8 c ++ s) (e ++ t) := by
  obtain ⟨b, bs, hutf8, hb, hread⟩ := readCodePoint_utf8 hc
  have hsimple : simpleEscape .ascii b = none := by
    unfold simpleEscape
    split <;> first | rfl | omega
  have hslash : b ∉ special := by
    intro hmem
    rw [hspecial b hmem] at hb
    exact absurd hb (by decide)
  refine ⟨b, bs, universalName c.toNat, hutf8, fun p => ?_, fun s t h => ?_⟩
  · simp only [escapeChar, hsimple, if_neg hslash]
    rw [if_pos (by omega), if_neg (by decide), if_neg (by omega), if_pos trivial,
      appendUniversalName, hread p]
    rfl
  · have hbytes : ∀ d ∈ utf8 c, d.toNat < 32 ∨ 126 < d.toNat :=
      fun d hd => .inr (by have := utf8_bytes hc d hd; omega)
    have hne : utf8 c ≠ [] := by simp [hutf8]
    have hvalid := isValid_toNat c
    unfold universalName
    split_ifs with hlarge
    · refine h.append (isEscape_name (.inr ⟨rfl, rfl⟩) ?_ (appendUTF8_toNat c) hne hbytes)
      omega
    · refine h.append (isEscape_name (.inl ⟨rfl, rfl⟩) ?_ (appendUTF8_toNat c) hne hbytes)
      omega

/-- The loop writes `e` for the bytes `u`, and goes on. -/
def Writes (special : Text) (mode : ToStringMode) (u e : Text) : Prop :=
  (∀ p fuel, (u ++ p).length ≤ fuel → ∃ fuel', p.length ≤ fuel' ∧
    escapeLoop special mode fuel (u ++ p) = (escapeLoop special mode fuel' p).map (e ++ ·)) ∧
  ∀ s t, Escaped special s t → Escaped special (u ++ s) (e ++ t)

theorem escapeLoop_cons {p p' e : Text} (h : escapeChar special mode c p = .ok (e, p'))
    (fuel : Nat) :
    escapeLoop special mode (fuel + 1) (c :: p) = (escapeLoop special mode fuel p').map
      (e ++ ·) := by
  rw [escapeLoop, h]
  cases hloop : escapeLoop special mode fuel p' with
  | error err => simp [hloop, Except.map, bind, Except.bind]
  | ok result => simp [hloop, Except.map, bind, Except.bind, pure, Except.pure]

theorem writes_nil (special : Text) (mode : ToStringMode) : Writes special mode [] [] := by
  refine ⟨fun p fuel hfuel => ⟨fuel, hfuel, ?_⟩, fun s t h => h⟩
  cases h : escapeLoop special mode fuel p <;> simp [h, Except.map]

/-- Every character or escape sequence stands for something. -/
theorem decodeChar_ne_nil (special : Text) (c : Char) (s s' : Text) :
    decodeChar special c s ≠ .ok ([], s') := by
  have hutf8 : ∀ n, appendUTF8 n ≠ .ok [] := by
    intro n
    unfold appendUTF8
    split_ifs <;> simp
  have hescape : ∀ d t, decodeEscape special d t ≠ .ok ([], s') := by
    intro d t h
    unfold decodeEscape at h
    repeat' split at h
    all_goals
      first
      | obtain ⟨u, hu, h⟩ := Misc.bind_eq_ok_iff.mp h
        simp only [pure, Except.pure, Except.ok.injEq, Prod.mk.injEq, reduceCtorEq, false_and] at h
        try exact hutf8 _ (h.1 ▸ hu)
      | simp at h
  intro h
  unfold decodeChar at h
  split_ifs at h
  · obtain ⟨d, -, h⟩ := Misc.bind_eq_ok_iff.mp h
    simp [pure, Except.pure] at h
  · split at h
    · simp at h
    · exact hescape _ _ h

section

variable (hspecial : ∀ c ∈ special, c = '/')
include hspecial

theorem writes_bytes {u : Text}
    (hu : ∀ c ∈ u, c.toNat < 256 ∧ (c.toNat < 128 ∨ mode ≠ .ascii)) :
    ∃ e, Writes special mode u e := by
  induction u with
  | nil => exact ⟨[], writes_nil special mode⟩
  | cons c u ih =>
    obtain ⟨e, hloop, hescaped⟩ := ih fun d hd => hu d (mem_cons_of_mem _ hd)
    obtain ⟨hbyte, hmode⟩ := hu c mem_cons_self
    obtain ⟨e', hchar, hescaped'⟩ := escapeChar_byte hspecial hbyte hmode
    refine ⟨e' ++ e, fun p fuel hfuel => ?_, fun s t h => ?_⟩
    · obtain ⟨fuel, rfl⟩ : ∃ n, fuel = n + 1 := ⟨fuel - 1, by simp at hfuel; omega⟩
      obtain ⟨fuel', hfuel', htail⟩ := hloop p fuel (by simpa using hfuel)
      refine ⟨fuel', hfuel', ?_⟩
      rw [cons_append, escapeLoop_cons (hchar _), htail]
      cases escapeLoop special mode fuel' p <;> simp [Except.map]
    · rw [append_assoc]
      exact hescaped' _ _ (hescaped s t h)

theorem writes_utf8 (mode : ToStringMode) (c : Char) : ∃ e, Writes special mode (utf8 c) e := by
  by_cases hascii : c.toNat < 128
  · apply writes_bytes hspecial
    intro d hd
    rw [utf8, if_pos (by omega), Char.ofNat_toNat] at hd
    obtain rfl := mem_singleton.mp hd
    exact ⟨by omega, .inl hascii⟩
  by_cases hmode : mode = .ascii
  · subst hmode
    obtain ⟨b, bs, e, hutf8, hchar, hescaped⟩ := escapeChar_name hspecial (Nat.le_of_not_lt hascii)
    refine ⟨e, fun p fuel hfuel => ?_, hescaped⟩
    rw [hutf8] at hfuel ⊢
    obtain ⟨fuel, rfl⟩ : ∃ n, fuel = n + 1 := ⟨fuel - 1, by simp at hfuel; omega⟩
    exact ⟨fuel, by simp at hfuel; omega, escapeLoop_cons (hchar p) fuel⟩
  · apply writes_bytes hspecial
    intro d hd
    exact ⟨(utf8_bytes (Nat.le_of_not_lt hascii) d hd).2, .inr hmode⟩

theorem checkSpecial_slash : checkSpecial special = .ok () := by
  rw [checkSpecial, if_neg]
  simp only [any_eq_true, not_exists, not_and]
  intro c hc
  rw [hspecial c hc]
  decide

/-- A valid string is escaped, in every mode. -/
theorem escapeString_spec {s : Text} (hs : ValidUTF8 s) (mode : ToStringMode) :
    ∃ e, escapeString s special mode = .ok e ∧ Escaped special s e := by
  obtain ⟨cs, rfl⟩ := hs
  have hloop : ∀ fuel, (cs.flatMap utf8).length ≤ fuel →
      ∃ e, escapeLoop special mode fuel (cs.flatMap utf8) = .ok e ∧
        Escaped special (cs.flatMap utf8) e := by
    induction cs with
    | nil =>
      intro fuel _
      exact ⟨[], by cases fuel <;> rfl, .nil⟩
    | cons c cs ih =>
      intro fuel hfuel
      rw [flatMap_cons] at hfuel ⊢
      obtain ⟨e, hwrites, hescaped⟩ := writes_utf8 hspecial mode c
      obtain ⟨fuel', hfuel', heq⟩ := hwrites _ fuel hfuel
      obtain ⟨t, ht, htail⟩ := ih fuel' hfuel'
      rw [ht] at heq
      exact ⟨e ++ t, heq, hescaped _ _ htail⟩
  obtain ⟨e, he, hescaped⟩ := hloop _ le_rfl
  refine ⟨e, ?_, hescaped⟩
  rw [escapeString, checkSpecial_slash hspecial]
  exact he

end

/-! ## Unescaping -/

theorem decodeChar_plain (hc : Plain special c) (rest : Text) :
    decodeChar special c rest = .ok ([c], rest) := by
  have hcheck : checkChar c = .ok c :=
    if_neg (by have := hc.printable; have := hc.not_delete; omega)
  unfold decodeChar
  rw [if_pos hc.not_backslash, hcheck]
  rfl

/-- An escaped string is read back, whatever comes behind it. -/
theorem unescapeLoop_append {s e : Text} (h : Escaped special s e) (rest : Text) {fuel : Nat}
    (hfuel : (e ++ rest).length ≤ fuel) : ∃ fuel', rest.length ≤ fuel' ∧
      unescapeLoop special fuel (e ++ rest) = (unescapeLoop special fuel' rest).map (s ++ ·) := by
  induction h generalizing fuel with
  | nil =>
    refine ⟨fuel, hfuel, ?_⟩
    cases h : unescapeLoop special fuel rest <;> simp [h, Except.map]
  | @plain c s e hc _ ih =>
    obtain ⟨fuel, rfl⟩ : ∃ n, fuel = n + 1 := ⟨fuel - 1, by simp at hfuel; omega⟩
    obtain ⟨fuel', hfuel', heq⟩ := @ih fuel (by simpa using hfuel)
    refine ⟨fuel', hfuel', ?_⟩
    rw [cons_append, unescapeLoop, decodeChar_plain hc]
    dsimp only [bind, Except.bind]
    rw [heq]
    cases unescapeLoop special fuel' rest <;> simp [Except.map, pure, Except.pure]
  | @escape u d t s e hescape _ ih =>
    obtain ⟨fuel, rfl⟩ : ∃ n, fuel = n + 1 := ⟨fuel - 1, by simp at hfuel; omega⟩
    obtain ⟨fuel', hfuel', heq⟩ := @ih fuel (by simp at hfuel ⊢; omega)
    refine ⟨fuel', hfuel', ?_⟩
    rw [cons_append, cons_append, append_assoc, unescapeLoop, decodeChar, if_neg (by simp)]
    rw [hescape.decode]
    dsimp only [bind, Except.bind]
    rw [heq]
    cases unescapeLoop special fuel' rest <;> simp [Except.map, pure, Except.pure]

section

variable (hspecial : ∀ c ∈ special, c = '/')
include hspecial

/-- The shortcut for strings without escape sequences does what the loop does. -/
theorem unescapeString_eq_loop (s : Text) :
    unescapeString s special = unescapeLoop special s.length s := by
  rw [unescapeString, checkSpecial_slash hspecial]
  dsimp only [bind, Except.bind]
  split_ifs with hbackslash
  · rfl
  · induction s with
    | nil => rfl
    | cons c s ih =>
      have hc : c ≠ '\\' := fun h => hbackslash (h ▸ mem_cons_self)
      have ih := ih (not_mem_of_not_mem_cons hbackslash)
      rw [mapM_cons, length_cons, unescapeLoop, ih]
      unfold decodeChar
      rw [if_pos hc]
      cases checkChar c <;> rfl

theorem unescapeString_escaped {s e : Text} (h : Escaped special s e) :
    unescapeString e special = .ok s := by
  obtain ⟨fuel, -, heq⟩ := unescapeLoop_append h [] (le_of_eq (congrArg length (append_nil e)))
  rw [append_nil] at heq
  have hnil : unescapeLoop special fuel [] = .ok [] := by cases fuel <;> rfl
  rw [unescapeString_eq_loop hspecial, heq, hnil]
  simp [Except.map]

theorem unescapeString_eq_nil {s : Text} (h : unescapeString s special = .ok []) : s = [] := by
  rw [unescapeString_eq_loop hspecial] at h
  cases s with
  | nil => rfl
  | cons c s =>
    obtain ⟨⟨u, s'⟩, hdecode, h⟩ := Misc.bind_eq_ok_iff.mp h
    obtain ⟨rest, -, h⟩ := Misc.bind_eq_ok_iff.mp h
    obtain ⟨rfl, -⟩ : u = [] ∧ rest = [] := by simpa [pure, Except.pure] using h
    exact absurd hdecode (decodeChar_ne_nil special c s s')

/-- A quote behind an escaped string comes behind the string. -/
theorem unescapeString_quote {s e rest u : Text} (h : Escaped special s e)
    (hu : unescapeString (e ++ '"' :: rest) special = .ok u) :
    ∃ t, u = s ++ '"' :: t ∧ (rest = [] → t = []) := by
  obtain ⟨fuel, hfuel, heq⟩ := unescapeLoop_append h ('"' :: rest) le_rfl
  obtain ⟨fuel, rfl⟩ : ∃ n, fuel = n + 1 := ⟨fuel - 1, by simp at hfuel; omega⟩
  have hquote : ∀ t : Text, decodeChar special '"' t = .ok (['"'], t) := fun t => by
    cases t <;> rfl
  rw [unescapeString_eq_loop hspecial, heq, unescapeLoop, hquote] at hu
  cases hloop : unescapeLoop special fuel rest with
  | error err => simp [hloop, Except.map, bind, Except.bind] at hu
  | ok t =>
    refine ⟨t, ?_, ?_⟩
    · simpa [hloop, Except.map, bind, Except.bind, pure, Except.pure] using hu.symm
    · rintro rfl
      have hnil : unescapeLoop special fuel [] = .ok [] := by cases fuel <;> rfl
      rw [hnil] at hloop
      cases hloop
      rfl

end

end Ice.Proxy
