import Ice.Misc.Scan
import Ice.Slice.StringLiteral

/-!
# What generated string literals denote

The Swift literal that `writeConstantValue` writes is read step by step: `Reads value bytes` says
what the characters of the stored value stand for, in UTF-8.
-/

namespace Ice.Slice

open List StringLiteralGenerator

open Ice.Proxy (Text hexValue toHexDigit hexDigits octal utf8 ValidUTF8 utf8_bytes
  isValid_toNat toNat_ofNat hexValue_toHexDigit readCodePoint readCodePoint_utf8)

/-! ## UTF-8 -/

variable {c : Char}

theorem utf8_ascii (h : c.toNat < 128) : utf8 c = [c] := by
  unfold utf8
  rw [if_pos (by omega), Char.ofNat_toNat]

theorem toNat_ofNat_of_isValidChar {n : Nat} (h : n.isValidChar) : (Char.ofNat n).toNat = n := by
  rw [Char.ofNat, dif_pos h]
  rfl

theorem utf8_length (c : Char) : (utf8 c).length ≤ 4 := by
  unfold utf8
  dsimp only
  split_ifs <;> simp

/-- The first byte of a character is no continuation byte, and the others are. -/
theorem utf8_cons (c : Char) :
    ∃ b bs, utf8 c = b :: bs ∧ b.toNat / 64 ≠ 2 ∧ ∀ x ∈ bs, x.toNat / 64 = 2 := by
  have hvalid := isValid_toNat c
  unfold utf8
  dsimp only
  split_ifs
  · refine ⟨_, _, rfl, ?_, nofun⟩
    rw [toNat_ofNat (by omega)]
    omega
  all_goals
    refine ⟨_, _, rfl, ?_, ?_⟩
    · rw [toNat_ofNat (by omega)]
      omega
    · intro x hx
      simp only [mem_cons, not_mem_nil, or_false] at hx
      rcases hx with rfl | rfl | rfl <;> rw [toNat_ofNat (by omega)] <;> omega

variable {cs : List Char}

/-- A UTF-8 string is split where a byte is no continuation byte. -/
theorem utf8_split {x y : Text} {b : Char} (hb : b.toNat / 64 ≠ 2)
    (h : cs.flatMap utf8 = x ++ b :: y) :
    ∃ cs1 cs2, cs = cs1 ++ cs2 ∧ cs1.flatMap utf8 = x ∧ cs2.flatMap utf8 = b :: y := by
  induction cs generalizing x with
  | nil => exact absurd h.symm (by simp)
  | cons c cs ih =>
    rw [flatMap_cons] at h
    rcases append_eq_append_iff.mp h with ⟨x', hx, hrest⟩ | ⟨z, hc, hz⟩
    · obtain ⟨cs1, cs2, rfl, h1, h2⟩ := ih hrest
      exact ⟨c :: cs1, cs2, rfl, by rw [flatMap_cons, h1, hx], h2⟩
    · obtain ⟨a, as, hutf8, -, has⟩ := utf8_cons c
      cases x with
      | nil =>
        rw [nil_append] at hc
        rw [← hc] at hz
        exact ⟨[], c :: cs, rfl, rfl, by rw [flatMap_cons, hz]⟩
      | cons a' x =>
        cases z with
        | nil =>
          exact ⟨[c], cs, rfl, by simp [hc], by simpa using hz.symm⟩
        | cons b' z =>
          -- the byte would be inside of a character
          cases hz
          rw [hutf8] at hc
          cases hc
          exact absurd (has b (by simp)) hb

/-- No encoding of a character starts with that of another one. -/
theorem utf8_append_inj {c c' : Char} {p p' : Text} (h : utf8 c ++ p = utf8 c' ++ p') :
    c = c' ∧ p = p' := by
  by_cases hc : c.toNat < 128 <;> by_cases hc' : c'.toNat < 128
  · rw [utf8_ascii hc, utf8_ascii hc'] at h
    exact cons.inj h
  · obtain ⟨b, bs, hutf8, hb, -⟩ := readCodePoint_utf8 (Nat.le_of_not_lt hc')
    rw [utf8_ascii hc, hutf8] at h
    obtain ⟨rfl, -⟩ := cons.inj h
    omega
  · obtain ⟨b, bs, hutf8, hb, -⟩ := readCodePoint_utf8 (Nat.le_of_not_lt hc)
    rw [utf8_ascii hc', hutf8] at h
    obtain ⟨rfl, -⟩ := cons.inj h
    omega
  · obtain ⟨b, bs, hutf8, -, hread⟩ := readCodePoint_utf8 (Nat.le_of_not_lt hc)
    obtain ⟨b', bs', hutf8', -, hread'⟩ := readCodePoint_utf8 (Nat.le_of_not_lt hc')
    rw [hutf8, hutf8', cons_append, cons_append] at h
    obtain ⟨rfl, hbs⟩ := cons.inj h
    have heq := hread p
    rw [hbs, hread'] at heq
    obtain ⟨hnat, rfl⟩ := Prod.mk.inj (Except.ok.inj heq)
    exact ⟨Char.toNat_inj.mp hnat.symm, rfl⟩

theorem utf8_flatMap_append {cs1 : List Char} {p : Text}
    (h : cs.flatMap utf8 = cs1.flatMap utf8 ++ p) :
    ∃ cs2, cs = cs1 ++ cs2 ∧ cs2.flatMap utf8 = p := by
  induction cs1 generalizing cs with
  | nil => exact ⟨cs, rfl, h⟩
  | cons c cs1 ih =>
    cases cs with
    | nil =>
      obtain ⟨b, bs, hutf8, -⟩ := utf8_cons c
      rw [flatMap_cons, hutf8] at h
      cases h
    | cons c' cs =>
      rw [flatMap_cons, flatMap_cons, append_assoc] at h
      obtain ⟨rfl, hrest⟩ := utf8_append_inj h
      obtain ⟨cs2, rfl, hcs2⟩ := ih hrest
      exact ⟨cs2, rfl, hcs2⟩

theorem length_le_utf8 (cs : List Char) : cs.length ≤ (cs.flatMap utf8).length := by
  refine Misc.length_le_flatMap fun c _ => ?_
  obtain ⟨b, bs, hutf8, -⟩ := utf8_cons c
  simp [hutf8]

/-- The code points of a UTF-8 string. The fuel bounds the number of bytes. -/
def codePoints : Nat → Text → Option (List Nat)
  | _, [] => some []
  | 0, _ :: _ => none
  | fuel + 1, b :: bytes =>
    if b.toNat < 128 then (b.toNat :: ·) <$> codePoints fuel bytes
    else
      match readCodePoint b bytes with
      | .ok (codePoint, bytes) => (codePoint :: ·) <$> codePoints fuel bytes
      | .error _ => none

variable {fuel : Nat}

theorem codePoints_utf8 (cs : List Char) (h : cs.length ≤ fuel) :
    codePoints fuel (cs.flatMap utf8) = some (cs.map Char.toNat) := by
  induction cs generalizing fuel with
  | nil => cases fuel <;> rfl
  | cons c cs ih =>
    cases fuel with
    | zero => cases h
    | succ fuel =>
      have hrest := ih (Nat.le_of_succ_le_succ h)
      by_cases hc : c.toNat < 128
      · rw [flatMap_cons, utf8_ascii hc, singleton_append, codePoints, if_pos hc, hrest]
        rfl
      · obtain ⟨b, bs, hutf8, hb, hread⟩ := readCodePoint_utf8 (Nat.le_of_not_lt hc)
        rw [flatMap_cons, hutf8, cons_append, codePoints, if_neg (by omega), hread]
        dsimp only
        rw [hrest]
        rfl

theorem map_ofNat_toNat (cs : List Char) : (cs.map Char.toNat).map Char.ofNat = cs := by
  simp [Function.comp_def]

/-- A converter that only accepts UTF-8. -/
def utf8Converter : Converter where
  toUTF32 bytes :=
    (codePoints bytes.length bytes).filter fun u32buffer =>
      u32buffer.all (·.isValidChar) && (u32buffer.map Char.ofNat).flatMap utf8 = bytes
  fromUTF32 u32buffer := some ((u32buffer.map Char.ofNat).flatMap utf8)
  bounded bytes u32buffer h codePoint hmem := by
    have hvalid := (Option.filter_eq_some_iff.mp h).2
    rw [Bool.and_eq_true, List.all_eq_true] at hvalid
    have hchar : codePoint.isValidChar := of_decide_eq_true (hvalid.1 codePoint hmem)
    rcases hchar with hlow | hhigh <;> omega
  decode cs := by
    rw [codePoints_utf8 cs (length_le_utf8 cs)]
    refine Option.filter_eq_some_iff.mpr ⟨rfl, ?_⟩
    rw [Bool.and_eq_true, List.all_eq_true, map_ofNat_toNat]
    refine ⟨fun codePoint hmem => ?_, decide_eq_true rfl⟩
    obtain ⟨c, -, rfl⟩ := List.mem_map.mp hmem
    exact decide_eq_true c.valid
  encode bytes cs h := by
    have hvalid := (Option.filter_eq_some_iff.mp h).2
    rw [Bool.and_eq_true, map_ofNat_toNat] at hvalid
    exact (of_decide_eq_true hvalid.2).symm

/-! ## Escape sequences in Swift -/

theorem digit_toHexDigit {b : Nat} (h : b < 16) : digit 16 (toHexDigit b) = some b :=
  hexValue_toHexDigit h

theorem foldl_digits (base : Nat) (ds : Text) (v : Nat) :
    ds.foldl (fun v c => v * base + (digit base c).getD 0) v =
      v * base ^ ds.length + number base ds := by
  unfold number
  induction ds generalizing v with
  | nil => simp
  | cons d ds ih =>
    rw [foldl_cons, foldl_cons, ih, ih (0 * base + _), length_cons, Nat.pow_succ]
    ring

theorem number_append (base : Nat) (ds : Text) (d : Char) :
    number base (ds ++ [d]) = number base ds * base + (digit base d).getD 0 := by
  simp [number, foldl_append]

theorem length_hexDigits (i n : Nat) : (hexDigits i n).length = n := by
  induction n with
  | zero => rfl
  | succ n ih => rw [hexDigits, length_cons, ih]

theorem isSome_hexDigits (i n : Nat) : ∀ d ∈ hexDigits i n, (hexValue d).isSome := by
  induction n with
  | zero => nofun
  | succ n ih =>
    refine forall_mem_cons.mpr ⟨?_, ih⟩
    rw [hexValue_toHexDigit (Nat.mod_lt _ (by decide))]
    rfl

theorem number_hexDigits (i n : Nat) : number 16 (hexDigits i n) = i % 16 ^ n := by
  induction n with
  | zero => simp [hexDigits, number, Nat.mod_one]
  | succ n ih =>
    rw [number, hexDigits, foldl_cons, foldl_digits, ih, length_hexDigits,
      digit_toHexDigit (Nat.mod_lt _ (by decide)), Nat.pow_succ, Nat.mod_mul, Option.getD_some]
    ring

theorem number_dropWhile (ds : Text) : number 16 (ds.dropWhile (· = '0')) = number 16 ds := by
  induction ds with
  | nil => rfl
  | cons d ds ih =>
    rw [dropWhile_cons]
    split_ifs with hd
    · rw [ih, of_decide_eq_true hd]
      simp [number, digit, hexValue]
    · rfl

/-- The digits of a number of 32 bits. -/
theorem hex_spec {i : Nat} (h : i < 2 ^ 32) :
    number 16 (hex i) = i ∧ (∀ d ∈ hex i, (hexValue d).isSome) ∧ 1 ≤ (hex i).length ∧
      (hex i).length ≤ 8 := by
  have hnumber := number_dropWhile (hexDigits i 8)
  rw [number_hexDigits, Nat.mod_eq_of_lt (by omega)] at hnumber
  have hsome := isSome_hexDigits i 8
  have hsuffix : (hexDigits i 8).dropWhile (· = '0') <:+ hexDigits i 8 := dropWhile_suffix _
  have hlength := hsuffix.length_le
  unfold hex
  cases hdigits : (hexDigits i 8).dropWhile (· = '0') with
  | nil =>
    rw [hdigits] at hnumber
    exact ⟨hnumber, forall_mem_singleton.mpr rfl, by decide, by decide⟩
  | cons d ds =>
    rw [hdigits] at hnumber hsuffix hlength
    exact ⟨hnumber, fun x hx => hsome x (hsuffix.subset hx), by simp, hlength⟩

theorem swiftCharacters_digits {ds : Text} (hds : ∀ d ∈ ds, (hexValue d).isSome) (v n : Nat)
    (rest : Text) :
    swiftCharacters (.digits v n) (ds ++ '}' :: rest) =
      swiftCharacters (.digits (v * 16 ^ ds.length + number 16 ds) (n + ds.length))
      ('}' :: rest) := by
  induction ds generalizing v n with
  | nil => simp [number]
  | cons d ds ih =>
    obtain ⟨x, hx⟩ := Option.isSome_iff_exists.mp (hds d mem_cons_self)
    have hne : d ≠ '}' := by
      rintro rfl
      cases hx
    have hdigit : digit 16 d = some x := hx
    rw [cons_append, swiftCharacters, if_neg hne, hx]
    dsimp only
    rw [ih (fun y hy => hds y (mem_cons_of_mem _ hy)), number, number, foldl_cons,
      foldl_digits 16 ds (0 * 16 + _), hdigit, length_cons, Nat.pow_succ, Option.getD_some, number]
    congr 2 <;> ring

/-- An escape sequence that stands for a Unicode scalar value, if it stands for anything. -/
theorem swiftCharacters_universal {ds : Text} (hds : ∀ d ∈ ds, (hexValue d).isSome)
    (hpos : 1 ≤ ds.length) (hle : ds.length ≤ 8) (rest : Text) :
    swiftCharacters .plain ('\\' :: 'u' :: '{' :: (ds ++ ['}']) ++ rest) =
      if (number 16 ds).isValidChar then
        (Char.ofNat (number 16 ds) :: ·) <$> swiftCharacters .plain rest
      else none := by
  have hassoc : '\\' :: 'u' :: '{' :: (ds ++ ['}']) ++ rest =
      '\\' :: 'u' :: '{' :: (ds ++ '}' :: rest) := by simp
  rw [hassoc]
  change swiftCharacters (.digits 0 0) (ds ++ '}' :: rest) = _
  rw [swiftCharacters_digits hds, Nat.zero_mul, Nat.zero_add, Nat.zero_add,
    swiftCharacters, if_pos rfl]
  simp only [hpos, hle, true_and]

/-! ## The generator for Swift -/

/-- The generator that `writeConstantValue` uses. -/
def swiftGenerator (converter : Converter) : StringLiteralGenerator :=
  ⟨['\n', '\r', '\t'], ['\\', '"'], .ec6UCN, 0, converter⟩

/-- A text that is read as these characters. -/
def Literal (t : Text) (cs : List Char) : Prop :=
  ∀ rest, swiftCharacters .plain (t ++ rest) = (cs ++ ·) <$> swiftCharacters .plain rest

/-- A text that no Swift compiler accepts. -/
def Refused (t : Text) : Prop := ∀ rest, swiftCharacters .plain (t ++ rest) = none

theorem Literal.nil : Literal [] [] := by
  intro rest
  rw [nil_append]
  generalize swiftCharacters .plain rest = o
  cases o <;> rfl

theorem Literal.append {t1 t2 : Text} {cs1 cs2 : List Char} (h1 : Literal t1 cs1)
    (h2 : Literal t2 cs2) :
    Literal (t1 ++ t2) (cs1 ++ cs2) := by
  intro rest
  rw [append_assoc, h1, h2]
  cases swiftCharacters .plain rest <;> simp

theorem Refused.append_left {t1 t2 : Text} (h : Refused t1) : Refused (t1 ++ t2) := by
  intro rest
  rw [append_assoc, h]

theorem Literal.append_refused {t1 t2 : Text} (h1 : Literal t1 cs) (h2 : Refused t2) :
    Refused (t1 ++ t2) := by
  intro rest
  rw [append_assoc, h1, h2]
  rfl

theorem Literal.read {t rest : Text} {cs1 : List Char} (h : Literal t cs1)
    (hread : swiftCharacters .plain (t ++ rest) = some cs) :
    ∃ cs2, cs = cs1 ++ cs2 ∧ swiftCharacters .plain rest = some cs2 := by
  rw [h] at hread
  obtain ⟨cs2, hrest, rfl⟩ := Option.map_eq_some_iff.mp hread
  exact ⟨cs2, rfl, hrest⟩

section

variable (converter : Converter) (format : Format)

theorem escapeASCIIChar_none (h : 128 ≤ c.toNat) :
    (swiftGenerator converter).escapeASCIIChar format c = none := by
  rw [escapeASCIIChar, if_pos h]

theorem escapeASCIIChar_literal (h : c.toNat < 128) : ∃ t format',
    (swiftGenerator converter).escapeASCIIChar format c = some (t, format') ∧ Literal t [c] := by
  unfold escapeASCIIChar swiftGenerator
  rw [if_neg (by omega)]
  by_cases hnon : c ∈ ['\n', '\r', '\t']
  · rw [if_pos hnon]
    simp only [mem_cons, not_mem_nil, or_false] at hnon
    rcases hnon with rfl | rfl | rfl <;> exact ⟨_, _, rfl, fun _ => rfl⟩
  rw [if_neg hnon]
  by_cases hprintable : c ∈ ['\\', '"']
  · rw [if_pos hprintable]
    simp only [mem_cons, not_mem_nil, or_false] at hprintable
    rcases hprintable with rfl | rfl <;> exact ⟨_, _, rfl, fun _ => rfl⟩
  rw [if_neg hprintable, if_neg nofun, if_neg nofun]
  simp only [mem_cons, not_mem_nil, or_false, not_or] at hnon hprintable
  split_ifs with hrange hmatlab hcutOff
  · cases hmatlab.1
  · refine ⟨_, _, rfl, fun rest => ?_⟩
    rw [singleton_append, swiftCharacters, if_neg hprintable.2, if_neg hprintable.1,
      if_neg (by simp [hnon])]
    rfl
  · simp at hcutOff
  · refine ⟨_, _, rfl, fun rest => ?_⟩
    have hnumber := number_hexDigits c.toNat 4
    rw [Nat.mod_eq_of_lt (by omega)] at hnumber
    rw [swiftCharacters_universal (isSome_hexDigits _ _) (by rw [length_hexDigits]; decide)
      (by rw [length_hexDigits]; decide), hnumber, Char.ofNat_toNat, if_pos (.inl (by omega))]
    rfl
  · exact absurd rfl ‹_›

/-- A code point is written as an escape sequence that stands for it, or for nothing if it is a
    surrogate or too large. -/
theorem escapeCodePoint_literal {i : Nat} (h : i < 2 ^ 32) : ∃ t format',
    (swiftGenerator converter).escapeCodePoint format i = some (t, format') ∧
      (i.isValidChar → Literal t [Char.ofNat i]) ∧ (¬ i.isValidChar → Refused t) := by
  unfold escapeCodePoint
  by_cases hascii : i < 128
  · rw [if_pos hascii]
    obtain ⟨t, format', heq, ht⟩ := escapeASCIIChar_literal converter format (c := Char.ofNat i)
      (by rwa [toNat_ofNat (by omega)])
    exact ⟨t, format', heq, fun _ => ht, fun hnot => absurd (.inl (by omega)) hnot⟩
  · obtain ⟨hnumber, hsome, hpos, hle⟩ := hex_spec h
    have huniversal := swiftCharacters_universal hsome hpos hle
    rw [hnumber] at huniversal
    rw [if_neg hascii, if_neg nofun, if_pos (by rfl)]
    refine ⟨_, _, rfl, fun hvalid rest => ?_, fun hvalid rest => ?_⟩
    · rw [huniversal, if_pos hvalid]
      rfl
    · rw [huniversal, if_neg hvalid]

theorem escapeCodePoints_literal {u32buffer : List Nat}
    (h : ∀ codePoint ∈ u32buffer, codePoint < 2 ^ 32) :
    ∃ t format', (swiftGenerator converter).escapeCodePoints format u32buffer = some (t, format') ∧
      ((∀ codePoint ∈ u32buffer, codePoint.isValidChar) → Literal t (u32buffer.map Char.ofNat)) ∧
        (¬ (∀ codePoint ∈ u32buffer, codePoint.isValidChar) → Refused t) := by
  induction u32buffer generalizing format with
  | nil => exact ⟨_, _, rfl, fun _ => .nil, fun hnot => absurd nofun hnot⟩
  | cons codePoint u32buffer ih =>
    obtain ⟨t1, format1, h1, hliteral1, hrefused1⟩ :=
      escapeCodePoint_literal converter format (h codePoint mem_cons_self)
    obtain ⟨t2, format2, h2, hliteral2, hrefused2⟩ :=
      ih format1 fun x hx => h x (mem_cons_of_mem _ hx)
    refine ⟨t1 ++ t2, format2, ?_, fun hvalid => ?_, fun hvalid => ?_⟩
    · simp only [escapeCodePoints, h1, Option.bind_eq_bind, Option.bind_some, h2]
      rfl
    · rw [forall_mem_cons] at hvalid
      exact (hliteral1 hvalid.1).append (hliteral2 hvalid.2)
    · rw [forall_mem_cons, not_and_or] at hvalid
      by_cases hfirst : codePoint.isValidChar
      · exact (hliteral1 hfirst).append_refused
          (hrefused2 (hvalid.resolve_left (not_not.mpr hfirst)))
      · exact (hrefused1 hfirst).append_left

variable {cs : List Char}

/-- Bytes that are written together: they are UTF-8, or the result is no Swift literal. -/
theorem flushU8Buffer_literal {u8buffer : Text} (h : cs.flatMap utf8 = u8buffer) : ∃ t format',
    (swiftGenerator converter).flushU8Buffer format u8buffer = some (t, format') ∧
    Literal t cs := by
  subst h
  unfold flushU8Buffer
  split_ifs with hnil
  · cases cs with
    | nil => exact ⟨_, _, rfl, .nil⟩
    | cons c cs =>
      obtain ⟨b, bs, hutf8, -⟩ := utf8_cons c
      rw [flatMap_cons, hutf8] at hnil
      cases hnil
  · have hdecode := converter.decode cs
    have hvalid : ∀ codePoint ∈ cs.map Char.toNat, codePoint.isValidChar := by
      intro codePoint hmem
      obtain ⟨c, -, rfl⟩ := mem_map.mp hmem
      exact c.valid
    obtain ⟨t, format', heq, hliteral, -⟩ :=
      escapeCodePoints_literal converter format (converter.bounded _ _ hdecode)
    refine ⟨t, format', ?_, ?_⟩
    · change (converter.toUTF32 _).bind _ = _
      rw [hdecode]
      exact heq
    · rw [← map_ofNat_toNat cs]
      exact hliteral hvalid

variable {format' : Format}

theorem flushU8Buffer_cases {u8buffer t : Text}
    (h : (swiftGenerator converter).flushU8Buffer format u8buffer = some (t, format')) :
    (∃ cs, cs.flatMap utf8 = u8buffer ∧ Literal t cs) ∨ Refused t := by
  unfold flushU8Buffer at h
  split_ifs at h with hnil
  · cases h
    exact .inl ⟨[], hnil.symm, .nil⟩
  · change (converter.toUTF32 u8buffer).bind _ = _ at h
    cases hbuffer : converter.toUTF32 u8buffer with
    | none =>
      rw [hbuffer] at h
      cases h
    | some u32buffer =>
      obtain ⟨t', format'', heq, hliteral, hrefused⟩ :=
        escapeCodePoints_literal converter format (converter.bounded _ _ hbuffer)
      rw [hbuffer, Option.bind_some, heq] at h
      cases h
      by_cases hvalid : ∀ codePoint ∈ u32buffer, codePoint.isValidChar
      · refine .inl ⟨u32buffer.map Char.ofNat, (converter.encode _ _ ?_).symm, hliteral hvalid⟩
        rw [hbuffer, map_map]
        congr 1
        refine (map_id' u32buffer).symm.trans (map_congr_left fun codePoint hmem => ?_)
        rw [Function.comp_apply, toNat_ofNat_of_isValidChar (hvalid codePoint hmem)]
      · exact .inr (hrefused hvalid)

end

/-! ## The value, step by step -/

/-- The character that a universal character name with this value is written as. -/
def codePoint (v : Int) : Option Char :=
  if v < 128 then if (toChar v).toNat < 128 then some (toChar v) else none
  else if v.toNat.isValidChar then some (Char.ofNat v.toNat) else none

/-- What comes behind a backslash, and what is left. -/
def readEscape (v : Text) : Option (List Char × Text) :=
  match v with
  | [] => some (['\\'], [])
  | d :: v =>
    if d = '\\' then some (['\\'], v)
    else if d = 'u' ∨ d = 'U' then
      if (v.take (universalSize d)).length = universalSize d then do
        let n ← stoll 16 (v.take (universalSize d))
        let c ← codePoint n
        return ([c], v.drop (universalSize d))
      else none
    else if d.toNat < 128 then some (['\\', d], v) else none

/-- What an ASCII character and those behind it that belong to it stand for, and what is left. -/
def readNext (c : Char) (v : Text) : Option (List Char × Text) :=
  if c = '\\' then readEscape v else some ([c], v)

/-- The stored value of a literal, and what the generated literal denotes, in UTF-8. -/
inductive Reads : Text → Text → Prop
  | nil : Reads [] []
  | char {c : Char} {v bytes : Text} (hc : c ≠ '\\') (h : Reads v bytes) :
      Reads (c :: v) (c :: bytes)
  | escape {v rest bytes : Text} {cs : List Char} (hescape : readEscape v = some (cs, rest))
      (h : Reads rest bytes) :
      Reads ('\\' :: v) (cs.flatMap utf8 ++ bytes)

/-- What is written for characters that are read denotes them. Where none are read, nothing is
    written, or what is written is refused. -/
inductive Writes : Option (List Char × Text) → Option (Text × Format × Text) → Prop
  | literal {t rest : Text} {format : Format} {cs : List Char} (h : Literal t cs) :
      Writes (some (cs, rest)) (some (t, format, rest))
  | refused {t rest : Text} {format : Format} (h : Refused t) : Writes none (some (t, format, rest))
  | fails : Writes none none

/-- The hexadecimal digits are digits and letters. -/
theorem hexValue_range {d : Nat} (h : hexValue c = some d) :
    48 ≤ c.toNat ∧ c.toNat ≤ 102 ∧ c ≠ '\\' ∧ d < 16 := by
  have hne : c ≠ '\\' := by
    rintro rfl
    cases h
  unfold hexValue at h
  split_ifs at h with hdigit hlower hupper
  · have hge : 48 ≤ c.toNat := Char.le_def.mp hdigit.1
    have hle : c.toNat ≤ 57 := Char.le_def.mp hdigit.2
    cases h
    exact ⟨by omega, by omega, hne, by omega⟩
  · have hge : 97 ≤ c.toNat := Char.le_def.mp hlower.1
    have hle : c.toNat ≤ 102 := Char.le_def.mp hlower.2
    cases h
    exact ⟨by omega, by omega, hne, by omega⟩
  · have hge : 65 ≤ c.toNat := Char.le_def.mp hupper.1
    have hle : c.toNat ≤ 70 := Char.le_def.mp hupper.2
    cases h
    exact ⟨by omega, by omega, hne, by omega⟩

theorem number_lt {ds : Text} (h : ∀ d ∈ ds, (hexValue d).isSome) :
    number 16 ds < 16 ^ ds.length := by
  induction ds using reverseRecOn with
  | nil => decide
  | append_singleton ds d ih =>
    obtain ⟨x, hx⟩ := Option.isSome_iff_exists.mp (h d (by simp))
    have hlt := (hexValue_range hx).2.2.2
    have hrest := ih fun y hy => h y (mem_append_left _ hy)
    have hdigit : digit 16 d = some x := hx
    rw [number_append, hdigit, length_append, length_singleton, Nat.pow_succ, Option.getD_some]
    omega

/-- What `stoll` reads are digits that it finds in the text. -/
theorem stoll_eq {s : Text} {v : Int} (h : stoll 16 s = some v) : ∃ ds, ds <:+: s ∧
    (∀ d ∈ ds, (hexValue d).isSome) ∧ (v = number 16 ds ∨ v = -(number 16 ds : Int)) := by
  unfold stoll at h
  dsimp only at h
  rw [if_pos rfl] at h
  have hskip : ∀ t : Text, skipPrefix16 t <:+ t := by
    intro t
    unfold skipPrefix16
    split
    · split_ifs
      · exact ⟨['0', _], rfl⟩
      · exact suffix_rfl
    · exact suffix_rfl
  have hsign : ∀ t : Text, (if t.head? = some '-' ∨ t.head? = some '+' then
      t.tail else t) <:+ t := by
    intro t
    split_ifs
    · exact tail_suffix t
    · exact suffix_rfl
  generalize ht : (if (s.dropWhile isSpace).head? = some '-' ∨
    (s.dropWhile isSpace).head? = some '+' then
    (s.dropWhile isSpace).tail else s.dropWhile isSpace) = t at h
  have hsuffix : skipPrefix16 t <:+ s :=
    (hskip t).trans ((ht ▸ hsign (s.dropWhile isSpace)).trans (dropWhile_suffix _))
  have hdigits : ∀ d ∈ (skipPrefix16 t).takeWhile fun c => (digit 16 c).isSome,
      (hexValue d).isSome :=
    fun d hd => mem_takeWhile_imp (p := fun c => (digit 16 c).isSome) hd
  have hinfix := (List.takeWhile_prefix (l := skipPrefix16 t) fun c =>
    (digit 16 c).isSome).isInfix.trans hsuffix.isInfix
  split_ifs at h with hempty hneg <;> cases h
  · exact ⟨_, hinfix, hdigits, .inr rfl⟩
  · exact ⟨_, hinfix, hdigits, .inl rfl⟩

theorem stoll_lt {s : Text} {v : Int} (hs : s.length ≤ 8) (h : stoll 16 s = some v) :
    v < 2 ^ 32 := by
  obtain ⟨ds, hinfix, hsome, hv⟩ := stoll_eq h
  have hlt := number_lt hsome
  have hlength := hinfix.length_le
  have hpow : 16 ^ ds.length ≤ 16 ^ 8 := Nat.pow_le_pow_right (by decide) (by omega)
  omega

theorem universalSize_le (c : Char) : universalSize c ≤ 8 := by
  unfold universalSize
  split_ifs <;> decide

section

variable (converter : Converter) (format : Format)

theorem universalEscape_writes (ds rest : Text) {v : Int} (hv : v < 2 ^ 32) :
    Writes ((codePoint v).map fun x => ([x], rest))
      (((swiftGenerator converter).universalEscape format c ds v).map fun r =>
        (r.1, r.2, rest)) := by
  unfold universalEscape
  rw [if_neg nofun]
  by_cases hascii : v < 128
  · rw [if_pos hascii, codePoint, if_pos hascii]
    by_cases hchar : (toChar v).toNat < 128
    · obtain ⟨t, format', heq, hliteral⟩ := escapeASCIIChar_literal converter format hchar
      rw [if_pos hchar, heq]
      exact .literal hliteral
    · rw [if_neg hchar, escapeASCIIChar_none converter format (by omega)]
      exact .fails
  · obtain ⟨t, format', heq, hliteral, hrefused⟩ :=
      escapeCodePoint_literal converter format (i := v.toNat) (by omega)
    rw [if_neg hascii, if_neg nofun, if_neg (by simp [swiftGenerator]), heq, codePoint,
      if_neg hascii]
    by_cases hvalid : v.toNat.isValidChar
    · rw [if_pos hvalid]
      exact .literal (hliteral hvalid)
    · rw [if_neg hvalid]
      exact .refused (hrefused hvalid)

/-- What is written for a backslash and what comes behind it. -/
theorem backslashEscape_writes (v : Text) :
    Writes (readEscape v) ((swiftGenerator converter).backslashEscape format v) := by
  have hbackslash : Literal ['\\', '\\'] ['\\'] := fun _ => rfl
  unfold backslashEscape readEscape
  cases v with
  | nil => exact .literal hbackslash
  | cons d v =>
    dsimp only
    split_ifs with hd huniversal hsize hascii
    · exact .literal hbackslash
    · cases hn : stoll 16 (v.take (universalSize d)) with
      | none => exact .fails
      | some n =>
        have h := universalEscape_writes converter format (c := d) (v.take (universalSize d))
          (v.drop (universalSize d)) (stoll_lt (hsize.trans_le (universalSize_le d)) hn)
        rw [Option.map_eq_bind, Option.map_eq_bind] at h
        exact h
    · exact .fails
    · obtain ⟨t, format', heq, hliteral⟩ := escapeASCIIChar_literal converter .noFormat hascii
      rw [heq]
      exact .literal (hbackslash.append hliteral)
    · rw [escapeASCIIChar_none converter .noFormat (by omega)]
      exact .fails

theorem escapeNext_writes (hc : c.toNat < 128) (v : Text) :
    Writes (readNext c v) ((swiftGenerator converter).escapeNext format c v) := by
  unfold readNext escapeNext
  split_ifs
  · exact backslashEscape_writes converter format v
  · obtain ⟨t, format', heq, hliteral⟩ := escapeASCIIChar_literal converter format hc
    rw [heq]
    exact .literal hliteral

end

theorem readEscape_spec {v rest : Text} (h : readEscape v = some (cs, rest)) :
    cs ≠ [] ∧ rest.length ≤ v.length := by
  unfold readEscape at h
  cases v with
  | nil =>
    cases h
    exact ⟨nofun, le_rfl⟩
  | cons d v =>
    dsimp only at h
    split_ifs at h
    · cases h
      exact ⟨nofun, Nat.le_succ _⟩
    · obtain ⟨n, -, h⟩ := Option.bind_eq_some_iff.mp h
      obtain ⟨c, -, h⟩ := Option.bind_eq_some_iff.mp h
      cases h
      refine ⟨nofun, ?_⟩
      rw [length_drop, length_cons]
      omega
    · cases h
      exact ⟨nofun, Nat.le_succ _⟩

theorem readNext_spec {v rest : Text} (h : readNext c v = some (cs, rest)) :
    cs ≠ [] ∧ rest.length ≤ v.length := by
  unfold readNext at h
  split_ifs at h
  · exact readEscape_spec h
  · cases h
    exact ⟨nofun, le_rfl⟩

theorem Reads.next (hc : c.toNat < 128) {v rest bytes : Text}
    (hnext : readNext c v = some (cs, rest))
    (h : Reads rest bytes) : Reads (c :: v) (cs.flatMap utf8 ++ bytes) := by
  unfold readNext at hnext
  split_ifs at hnext with hbackslash
  · rw [hbackslash]
    exact .escape hnext h
  · cases hnext
    rw [flatMap_singleton, utf8_ascii hc]
    exact .char hbackslash h

theorem Reads.of_ascii (hc : c.toNat < 128) {v bytes : Text} (h : Reads (c :: v) bytes) :
    ∃ cs rest bytes', readNext c v = some (cs, rest) ∧ bytes = cs.flatMap utf8 ++ bytes' ∧
      Reads rest bytes' := by
  unfold readNext
  cases h with
  | @char _ _ bytes' hne h =>
    refine ⟨[c], v, bytes', if_neg hne, ?_, h⟩
    rw [flatMap_singleton, utf8_ascii hc]
    rfl
  | escape hescape h => exact ⟨_, _, _, by rw [if_pos rfl, hescape], rfl, h⟩

theorem Reads.bytes_append {u8buffer v bytes : Text} (hbuffer : ∀ b ∈ u8buffer, 128 ≤ b.toNat)
    (h : Reads v bytes) :
    Reads (u8buffer ++ v) (u8buffer ++ bytes) := by
  induction u8buffer with
  | nil => exact h
  | cons b u8buffer ih =>
    rw [forall_mem_cons] at hbuffer
    refine .char ?_ (ih hbuffer.2)
    rintro rfl
    exact absurd hbuffer.1 (by decide)

section

variable {converter : Converter} {format : Format} {u8buffer v : Text}

theorem literalLoop_nil (fuel : Nat) :
    (swiftGenerator converter).literalLoop fuel format u8buffer [] =
    ((swiftGenerator converter).flushU8Buffer format u8buffer).map Prod.fst := by
  cases fuel <;> rfl

theorem literalLoop_byte (fuel : Nat) (hc : 128 ≤ c.toNat) :
    (swiftGenerator converter).literalLoop (fuel + 1) format u8buffer (c :: v) =
      (swiftGenerator converter).literalLoop fuel format (u8buffer ++ [c]) v := by
  rw [literalLoop, if_pos hc, if_neg nofun]

theorem literalLoop_ascii (fuel : Nat) (hc : c.toNat < 128) :
    (swiftGenerator converter).literalLoop (fuel + 1) format u8buffer (c :: v) =
      ((swiftGenerator converter).flushU8Buffer format u8buffer).bind fun r1 =>
        ((swiftGenerator converter).escapeNext r1.2 c v).bind fun r2 =>
          ((swiftGenerator converter).literalLoop fuel r2.2.1 [] r2.2.2).map fun t =>
            r1.1 ++ (r2.1 ++ t) := by
  rw [literalLoop, if_neg (by omega)]
  refine congrArg (Option.bind _) (funext fun r1 => congrArg (Option.bind _) (funext fun r2 => ?_))
  exact (Option.map_eq_bind ..).symm

theorem reads_of_flush {literal : Text} (hbuffer : ∀ b ∈ u8buffer, 128 ≤ b.toNat)
    (h : (swiftGenerator converter).literalLoop fuel format u8buffer [] = some literal)
    (hswift : swiftCharacters .plain (literal ++ ['"']) = some cs) :
    Reads (u8buffer ++ []) (cs.flatMap utf8) := by
  rw [literalLoop_nil] at h
  obtain ⟨⟨t, format'⟩, hflush, rfl⟩ := Option.map_eq_some_iff.mp h
  rcases flushU8Buffer_cases converter format hflush with ⟨cs1, rfl, hliteral⟩ | hrefused
  · obtain ⟨cs2, rfl, hend⟩ := hliteral.read hswift
    cases hend
    rw [flatMap_append]
    exact Reads.nil.bytes_append hbuffer
  · rw [hrefused] at hswift
    cases hswift

theorem flush_of_reads {bytes : Text} (h : Reads [] bytes)
    (hutf8 : cs.flatMap utf8 = u8buffer ++ bytes) : ∃ literal,
      (swiftGenerator converter).literalLoop fuel format u8buffer [] = some literal ∧
        swiftCharacters .plain (literal ++ ['"']) = some cs := by
  cases h
  rw [append_nil] at hutf8
  obtain ⟨t, format', heq, hliteral⟩ := flushU8Buffer_literal converter format hutf8
  refine ⟨t, ?_, ?_⟩
  · rw [literalLoop_nil, heq]
    rfl
  · rw [hliteral]
    change some (cs ++ []) = some cs
    rw [append_nil]

/-- A Swift literal that was generated denotes what the stored value stands for. -/
theorem reads_of_literalLoop {literal : Text} (hbuffer : ∀ b ∈ u8buffer, 128 ≤ b.toNat)
    (h : (swiftGenerator converter).literalLoop fuel format u8buffer v = some literal)
    (hswift : swiftCharacters .plain (literal ++ ['"']) = some cs) :
    Reads (u8buffer ++ v) (cs.flatMap utf8) := by
  induction fuel generalizing format u8buffer v literal cs with
  | zero =>
    cases v with
    | nil => exact reads_of_flush hbuffer h hswift
    | cons c v => cases h
  | succ fuel ih =>
    cases v with
    | nil => exact reads_of_flush hbuffer h hswift
    | cons c v =>
      by_cases hc : 128 ≤ c.toNat
      · rw [literalLoop_byte fuel hc] at h
        rw [← singleton_append, ← append_assoc]
        refine ih ?_ h hswift
        rw [forall_mem_append, forall_mem_singleton]
        exact ⟨hbuffer, hc⟩
      · have hascii := Nat.lt_of_not_le hc
        rw [literalLoop_ascii fuel hascii] at h
        obtain ⟨⟨t1, format1⟩, hflush, h⟩ := Option.bind_eq_some_iff.mp h
        obtain ⟨⟨t2, format2, rest⟩, hnext, h⟩ := Option.bind_eq_some_iff.mp h
        obtain ⟨t3, hloop, rfl⟩ := Option.map_eq_some_iff.mp h
        rw [append_assoc, append_assoc] at hswift
        rcases flushU8Buffer_cases converter format hflush with ⟨cs1, rfl, h1⟩ | hrefused
        · obtain ⟨cs', rfl, hswift'⟩ := h1.read hswift
          have hwrites := hnext ▸ escapeNext_writes converter format1 hascii v
          generalize hread : readNext c v = read at hwrites
          cases hwrites with
          | literal h2 =>
            obtain ⟨cs3, rfl, hend⟩ := h2.read hswift'
            have hrest := ih (forall_mem_nil _) hloop hend
            rw [flatMap_append, flatMap_append]
            exact (Reads.next hascii hread hrest).bytes_append hbuffer
          | refused hrefused =>
            rw [hrefused] at hswift'
            cases hswift'
        · rw [hrefused] at hswift
          cases hswift

variable (converter) in
/-- If the stored value stands for a UTF-8 string, a Swift literal is generated that denotes it. -/
theorem literalLoop_of_reads {bytes : Text} (hbuffer : ∀ b ∈ u8buffer, 128 ≤ b.toNat)
    (h : Reads v bytes) (hfuel : v.length ≤ fuel) (hutf8 : cs.flatMap utf8 = u8buffer ++ bytes)
    (format : Format) : ∃ literal,
      (swiftGenerator converter).literalLoop fuel format u8buffer v = some literal ∧
        swiftCharacters .plain (literal ++ ['"']) = some cs := by
  induction fuel generalizing u8buffer v bytes cs format with
  | zero =>
    cases v with
    | nil => exact flush_of_reads h hutf8
    | cons c v => cases hfuel
  | succ fuel ih =>
    cases v with
    | nil => exact flush_of_reads h hutf8
    | cons c v =>
      have hlength : v.length ≤ fuel := Nat.le_of_succ_le_succ hfuel
      by_cases hc : 128 ≤ c.toNat
      · rw [literalLoop_byte fuel hc]
        have hchar : ∃ bytes', bytes = c :: bytes' ∧ Reads v bytes' := by
          cases h with
          | char _ h => exact ⟨_, rfl, h⟩
          | escape => exact absurd hc (by decide)
        obtain ⟨bytes', rfl, h'⟩ := hchar
        refine ih ?_ h' hlength ?_ format
        · rw [forall_mem_append, forall_mem_singleton]
          exact ⟨hbuffer, hc⟩
        · rw [append_assoc]
          exact hutf8
      · have hascii := Nat.lt_of_not_le hc
        obtain ⟨cs2, rest, bytes', hread, rfl, h'⟩ := h.of_ascii hascii
        obtain ⟨hne, hrest⟩ := readNext_spec hread
        -- the buffer ends where the next character starts
        obtain ⟨cs1, cs', rfl, rfl, hcs'⟩ :
          ∃ cs1 cs', cs = cs1 ++ cs' ∧ cs1.flatMap utf8 = u8buffer ∧
            cs'.flatMap utf8 = cs2.flatMap utf8 ++ bytes' := by
          cases cs2 with
          | nil => exact absurd rfl hne
          | cons x cs2 =>
            obtain ⟨b, bs, hx, hb, -⟩ := utf8_cons x
            rw [flatMap_cons, hx] at hutf8 ⊢
            exact utf8_split hb hutf8
        obtain ⟨cs3, rfl, hcs3⟩ := utf8_flatMap_append hcs'
        obtain ⟨t1, format1, hflush, h1⟩ :=
          flushU8Buffer_literal converter format (show cs1.flatMap utf8 = _ from rfl)
        have hwrites := hread ▸ escapeNext_writes converter format1 hascii v
        generalize hnext : (swiftGenerator converter).escapeNext format1 c v = written at hwrites
        cases hwrites with
        | @literal t2 _ format2 _ h2 =>
        obtain ⟨t3, hloop, h3⟩ := ih (forall_mem_nil _) h' (hrest.trans hlength) hcs3 format2
        refine ⟨t1 ++ (t2 ++ t3), ?_, ?_⟩
        · rw [literalLoop_ascii fuel hascii, hflush, Option.bind_some, hnext,
            Option.bind_some, hloop]
          rfl
        · rw [append_assoc, append_assoc, h1, h2, h3]
          rfl

/-- What `writeConstantValue` writes for a value denotes `cs` if and only if the value stands for
    that. -/
theorem writeConstantValue_iff (value : Text) (cs : List Char) :
    (∃ literal, writeConstantValue converter value = some literal ∧
      swiftLiteral literal = some cs) ↔
      Reads value (cs.flatMap utf8) := by
  have hwrite : writeConstantValue converter value =
      ((swiftGenerator converter).literalLoop value.length .noFormat [] value).map fun t =>
      '"' :: t ++ ['"'] :=
    (Option.map_eq_bind ..).symm
  rw [hwrite]
  constructor
  · rintro ⟨literal, hliteral, hswift⟩
    obtain ⟨t, hloop, rfl⟩ := Option.map_eq_some_iff.mp hliteral
    exact reads_of_literalLoop (forall_mem_nil _) hloop hswift
  · intro h
    obtain ⟨t, hloop, hswift⟩ := literalLoop_of_reads converter
      (forall_mem_nil _) h le_rfl rfl .noFormat
    exact ⟨'"' :: t ++ ['"'], by rw [hloop]; rfl, hswift⟩

end

end Ice.Slice
