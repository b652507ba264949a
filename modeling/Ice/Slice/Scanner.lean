import Ice.Proxy.Escape

/-!
# String literals in Slice

The rules of the scanner for string literals (`cpp/src/Slice/Scanner.l:127-281,469`). A string is a
list of its bytes, each as the character with that code. The scanner goes on after an error, but
then no code is generated: here it stops.
-/

namespace Ice.Slice

open Ice.Proxy (Text hexValue octalValue utf8 ValidUTF8)

/-! ## Numbers -/

/-- `isspace`. -/
def isSpace (c : Char) : Bool := c = ' ' || (9 ≤ c.toNat && c.toNat ≤ 13)

/-- A digit in base 8 or 16. -/
def digit (base : Nat) (c : Char) : Option Nat := if base = 8 then octalValue c else hexValue c

/-- The number that digits stand for. -/
def number (base : Nat) (digits : Text) : Nat :=
  digits.foldl (fun v c => v * base + (digit base c).getD 0) 0

/-- What `strtoll` skips in base 16. -/
def skipPrefix16 (s : Text) : Text :=
  match s with
  | '0' :: x :: d :: s' => if (x = 'x' ∨ x = 'X') ∧ (hexValue d).isSome then d :: s' else s
  | _ => s

/-- `std::stoll` in base 8 or 16 of a string of at most 8 characters. It ignores what comes after
    the digits. -/
def stoll (base : Nat) (s : Text) : Option Int :=
  let s := s.dropWhile isSpace
  let negative := s.head? = some '-'
  let s := if s.head? = some '-' ∨ s.head? = some '+' then s.tail else s
  let s := if base = 16 then skipPrefix16 s else s
  let digits := s.takeWhile fun c => (digit base c).isSome
  if digits.isEmpty then none
  else some (if negative then -(number base digits : Int) else number base digits)

/-! ## Tokens -/

/-- What is reported as an error. -/
inductive ScanError where
  | octalOutOfRange (digits : Text)
  | noHexDigit
  | surrogate (text : Text)
  | unknownEscape (text : Text)
  | endOfLine
  | endOfFile
  /-- no rule matches -/
  | jammed
deriving DecidableEq, Repr

/-- What a rule of the scanner matches; for text, one character of it. -/
inductive Token where
  | text (c : Char)
  /-- white space, which the scanner drops -/
  | blank (cs : Text)
  /-- `\\` -/
  | backslash
  | quoted (c : Char)
  | ansi (c : Char)
  | octal (digits : Text)
  | hexadecimal (digits : Text)
  /-- `\u` or `\U` -/
  | universal (c : Char) (digits : Text)
  | unknown (c : Char)
deriving DecidableEq, Repr

/-- The character of an ANSI escape code. -/
def ansiCode (c : Char) : Char :=
  match c with
  | 'a' => Char.ofNat 7
  | 'b' => Char.ofNat 8
  | 'f' => Char.ofNat 12
  | 'n' => Char.ofNat 10
  | 'r' => Char.ofNat 13
  | 't' => Char.ofNat 9
  | _ => Char.ofNat 11

/-- The number of digits of a universal character name. -/
def universalSize (c : Char) : Nat := if c = 'U' then 8 else 4

/-- What an action appends to `StringTok::v`. -/
def Token.value : Token → Text
  | .text c => [c]
  | .blank _ => []
  | .backslash => ['\\', '\\']
  | .quoted c => [c]
  | .ansi c => [ansiCode c]
  | .octal digits => [Char.ofNat (number 8 digits)]
  | .hexadecimal digits => [Char.ofNat (number 16 digits)]
  | .universal c digits => '\\' :: c :: digits
  -- the text that was matched is a string that ends with its first null character
  | .unknown c => if c.toNat = 0 then ['\\', '\\'] else ['\\', '\\', c]

/-! ## The rules -/

/-- `[^\\\n"\x0-\x1f\x7f]`. -/
def isText (c : Char) : Bool := c ≠ '\\' && c ≠ '"' && 32 ≤ c.toNat && c.toNat ≠ 127

/-- `[[:space:]]{-}[\n]`. -/
def isWhitespace (c : Char) : Bool := isSpace c && c ≠ '\n'

/-- `[g-zG-Z]`. -/
def isOtherLetter (c : Char) : Bool := ('g' ≤ c && c ≤ 'z') || ('G' ≤ c && c ≤ 'Z')

/-- As many digits as there are, up to a number of them. -/
def digits (base size : Nat) (s : Text) : Text :=
  (s.take size).takeWhile fun c => (digit base c).isSome

/-- The rules for a universal character name. -/
def scanUniversal (c : Char) (s : Text) : Except ScanError (Token × Text) :=
  let size := universalSize c
  let ds := digits 16 size s
  if ds.length = size then
    if number 16 ds ≤ 0xdfff ∧ 0xd800 ≤ number 16 ds then .error (.surrogate ('\\' :: c :: ds))
    else .ok (.universal c ds, s.drop size)
  else .error (.unknownEscape ('\\' :: c :: ds ++ (s.drop ds.length).takeWhile isOtherLetter))

/-- The rules for what starts with a backslash. -/
def scanEscape (s : Text) : Except ScanError (Token × Text) :=
  match s with
  -- a dangling backslash is followed by an error
  | [] => .error .endOfFile
  | c :: s =>
    if c = '\n' then .error .endOfLine
    else if c = '\\' then .ok (.backslash, s)
    else if c ∈ ['"', '\'', '?'] then .ok (.quoted c, s)
    else if c ∈ ['a', 'b', 'f', 'n', 'r', 't', 'v'] then .ok (.ansi c, s)
    else if (octalValue c).isSome then
      let ds := digits 8 3 (c :: s)
      if 255 < number 8 ds then .error (.octalOutOfRange ds)
      else .ok (.octal ds, (c :: s).drop ds.length)
    else if c = 'x' then
      let ds := digits 16 2 s
      if ds = [] then .error .noHexDigit else .ok (.hexadecimal ds, s.drop ds.length)
    else if c = 'u' ∨ c = 'U' then scanUniversal c s
    else .ok (.unknown c, s)

/-- The rules for text and for white space. The longer match wins. -/
def scanText (s : Text) : Except ScanError (List Token × Text) :=
  let text := s.takeWhile isText
  let white := s.takeWhile isWhitespace
  if text.length < white.length then .ok ([.blank white], s.drop white.length)
  else if text = [] then .error .jammed
  else .ok (text.map .text, s.drop text.length)

/-- The tokens up to the closing quote, and what comes after it. The fuel bounds the number of
    matches. -/
def scanLoop : Nat → Text → Except ScanError (List Token × Text)
  | 0, _ => .error .endOfFile
  | _ + 1, [] => .error .endOfFile
  | fuel + 1, c :: s =>
    if c = '"' then .ok ([], s)
    else if c = '\n' then .error .endOfLine
    else if c = '\\' then do
      let (token, s) ← scanEscape s
      let (tokens, s) ← scanLoop fuel s
      return (token :: tokens, s)
    else do
      let (text, s) ← scanText (c :: s)
      let (tokens, s) ← scanLoop fuel s
      return (text ++ tokens, s)

/-- A string literal behind its opening quote. -/
def scan (s : Text) : Except ScanError (List Token × Text) := scanLoop (s.length + 1) s

/-- The value of a string literal, `StringTok::v`. -/
def value (tokens : List Token) : Text := tokens.flatMap Token.value

/-! ## What a literal denotes -/

/-- What a part of a literal denotes, in UTF-8. An unknown escape sequence denotes itself. -/
def Token.denotes : Token → Text
  | .text c => [c]
  | .blank cs => cs
  | .backslash => ['\\']
  | .quoted c => [c]
  | .ansi c => [ansiCode c]
  | .octal digits => [Char.ofNat (number 8 digits)]
  | .hexadecimal digits => [Char.ofNat (number 16 digits)]
  | .universal _ digits => utf8 (Char.ofNat (number 16 digits))
  | .unknown c => ['\\', c]

/-- What a literal denotes, in UTF-8. -/
def denotes (tokens : List Token) : Text := tokens.flatMap Token.denotes

/-- A universal character name that designates a Unicode scalar value; an octal or hexadecimal
    escape that denotes an ASCII character. -/
def Token.Standard : Token → Prop
  | .octal digits => number 8 digits < 128
  | .hexadecimal digits => number 16 digits < 128
  | .universal _ digits => (number 16 digits).isValidChar
  | _ => True

instance : DecidablePred Token.Standard
  | .octal digits => inferInstanceAs (Decidable (number 8 digits < 128))
  | .hexadecimal digits => inferInstanceAs (Decidable (number 16 digits < 128))
  | .universal _ digits => inferInstanceAs (Decidable (number 16 digits).isValidChar)
  | .text _ | .blank _ | .backslash | .quoted _ | .ansi _ | .unknown _ => .isTrue trivial

/-! ## What the rules match -/

/-- What is known of a token that the scanner has found. -/
def Token.Valid : Token → Prop
  | .text c => c ≠ '\\'
  | .blank cs => ∃ c ∈ cs, c.toNat < 32
  | .quoted c => c ≠ '\\'
  | .universal c digits =>
    (c = 'u' ∨ c = 'U') ∧ digits.length = universalSize c ∧ ∀ d ∈ digits, (hexValue d).isSome
  | .unknown c => c ≠ '\\' ∧ c ≠ 'u' ∧ c ≠ 'U'
  | _ => True

theorem digits_all (base size : Nat) (s : Text) : ∀ c ∈ digits base size s, (digit base c).isSome :=
  fun _ hc => List.mem_takeWhile_imp (p := fun c => (digit base c).isSome) hc

theorem scanUniversal_valid {c : Char} {s rest : Text} {token : Token} (hc : c = 'u' ∨ c = 'U')
    (h : scanUniversal c s = .ok (token, rest)) : token.Valid := by
  unfold scanUniversal at h
  dsimp only at h
  split_ifs at h with hsize
  cases h
  exact ⟨hc, hsize, digits_all 16 _ s⟩

theorem scanEscape_valid {s rest : Text} {token : Token} (h : scanEscape s = .ok (token, rest)) :
    token.Valid := by
  cases s with
  | nil => cases h
  | cons c s =>
    unfold scanEscape at h
    dsimp only at h
    split_ifs at h with hline hbackslash hquoted hansi hoctal hrange hx hempty huniversal
    · cases h
      trivial
    · cases h
      exact hbackslash
    · cases h
      trivial
    · cases h
      trivial
    · cases h
      trivial
    · exact scanUniversal_valid huniversal h
    · cases h
      exact ⟨hbackslash, fun hc => huniversal (.inl hc), fun hc => huniversal (.inr hc)⟩

/-- White space is longer than text only if there is a control character in it. -/
theorem blank_valid {s : Text}
    (h : (s.takeWhile isText).length < (s.takeWhile isWhitespace).length) :
    ∃ c ∈ s.takeWhile isWhitespace, c.toNat < 32 := by
  induction s with
  | nil => cases h
  | cons c s ih =>
    by_cases hwhite : isWhitespace c = true
    · rw [List.takeWhile_cons_of_pos hwhite] at h ⊢
      by_cases htext : isText c = true
      · rw [List.takeWhile_cons_of_pos htext] at h
        obtain ⟨d, hmem, hd⟩ := ih (Nat.lt_of_succ_lt_succ h)
        exact ⟨d, List.mem_cons_of_mem _ hmem, hd⟩
      · refine ⟨c, List.mem_cons_self, ?_⟩
        simp only [isWhitespace, isSpace, Bool.and_eq_true, Bool.or_eq_true, decide_eq_true_eq]
          at hwhite
        rcases hwhite.1 with rfl | hcontrol
        · exact absurd rfl htext
        · omega
    · rw [List.takeWhile_cons_of_neg hwhite] at h
      exact absurd h (Nat.not_lt_zero _)

theorem scanText_valid {s rest : Text} {tokens : List Token} (h : scanText s = .ok (tokens, rest)) :
    ∀ token ∈ tokens, token.Valid := by
  unfold scanText at h
  dsimp only at h
  split_ifs at h with hblank hempty
  · cases h
    intro token hmem
    rw [List.mem_singleton.mp hmem]
    exact blank_valid hblank
  · cases h
    intro token hmem
    obtain ⟨c, hc, rfl⟩ := List.mem_map.mp hmem
    have htext := List.mem_takeWhile_imp hc
    simp only [isText, ne_eq, Bool.and_eq_true, decide_eq_true_eq] at htext
    exact htext.1.1.1

theorem scanLoop_valid {fuel : Nat} {s rest : Text} {tokens : List Token}
    (h : scanLoop fuel s = .ok (tokens, rest)) :
    ∀ token ∈ tokens, token.Valid := by
  induction fuel generalizing s tokens with
  | zero => cases h
  | succ fuel ih =>
    cases s with
    | nil => cases h
    | cons c s =>
      unfold scanLoop at h
      split_ifs at h with hquote hline hbackslash
      · cases h
        nofun
      · rcases hescape : scanEscape s with _ | ⟨token, s'⟩ <;> rw [hescape] at h
        · cases h
        rcases hloop : scanLoop fuel s' with _ | ⟨others, s''⟩ <;>
          simp only [bind, Except.bind, hloop] at h
        · cases h
        cases h
        exact List.forall_mem_cons.mpr ⟨scanEscape_valid hescape, ih hloop⟩
      · rcases htext : scanText (c :: s) with _ | ⟨text, s'⟩ <;> rw [htext] at h
        · cases h
        rcases hloop : scanLoop fuel s' with _ | ⟨others, s''⟩ <;>
          simp only [bind, Except.bind, hloop] at h
        · cases h
        cases h
        exact List.forall_mem_append.mpr ⟨scanText_valid htext, ih hloop⟩

end Ice.Slice
