import Ice.Slice.SwiftLiteral

/-!
# String constants in Swift

When a string constant of Slice has the same value in the generated Swift code. The scanner keeps a
backslash that was written as `\\` or that starts a universal character name with what follows it,
but a backslash that was written in octal or hexadecimal is stored like any other character. The
generator then takes it together with what comes next.
-/

namespace Ice.Slice

open List

open Ice.Proxy (Text hexValue utf8 ValidUTF8 utf8_bytes)

/-- A token, as far as it matters to the generator. -/
inductive Piece where
  | char (c : Char)
  /-- a backslash written in octal or hexadecimal -/
  | raw
  /-- a backslash written as `\\` -/
  | pair
  | universal (c : Char) (digits : Text)
  | unknown (c : Char)
  | blank (cs : Text)
deriving DecidableEq

namespace Piece

/-- What the scanner stores. -/
def value : Piece → Text
  | .char c => [c]
  | .raw => ['\\']
  | .pair => ['\\', '\\']
  | .universal c digits => '\\' :: c :: digits
  | .unknown c => if c.toNat = 0 then ['\\', '\\'] else ['\\', '\\', c]
  | .blank _ => []

/-- What it denotes, in UTF-8. -/
def denotes : Piece → Text
  | .char c => [c]
  | .raw => ['\\']
  | .pair => ['\\']
  | .universal _ digits => utf8 (Char.ofNat (number 16 digits))
  | .unknown c => ['\\', c]
  | .blank cs => cs

/-- What is known of a piece of a literal. -/
def Valid : Piece → Prop
  | .char c => c ≠ '\\'
  | .universal c digits => (c = 'u' ∨ c = 'U') ∧ digits.length = universalSize c ∧
      (∀ d ∈ digits, (hexValue d).isSome) ∧ (number 16 digits).isValidChar
  | .unknown c => c ≠ '\\' ∧ c ≠ 'u' ∧ c ≠ 'U'
  | .blank cs => ∃ c ∈ cs, c.toNat < 32
  | _ => True

end Piece

/-- A character that is written in octal or hexadecimal. -/
def codePiece (n : Nat) : Piece := if n = 92 then .raw else .char (Char.ofNat n)

def Token.piece : Token → Piece
  | .text c => .char c
  | .blank cs => .blank cs
  | .backslash => .pair
  | .quoted c => .char c
  | .ansi c => .char (ansiCode c)
  | .octal digits => codePiece (number 8 digits)
  | .hexadecimal digits => codePiece (number 16 digits)
  | .universal c digits => .universal c digits
  | .unknown c => .unknown c

/-- What is stored for the pieces of a literal. -/
def stored (pieces : List Piece) : Text := pieces.flatMap Piece.value

/-- What the pieces of a literal denote. -/
def meaning (pieces : List Piece) : Text := pieces.flatMap Piece.denotes

mutual

/-- No character is dropped, and each backslash that is written in octal or hexadecimal is followed
    as `safe` says. -/
def plain : List Piece → Bool
  | [] => true
  | .raw :: pieces => safe pieces
  | .unknown c :: pieces => c.toNat ≠ 0 && plain pieces
  | .blank _ :: _ => false
  | _ :: pieces => plain pieces

/-- After a backslash and any number of escaped backslashes there is nothing, or an ASCII character
    other than `u` and `U` that is no backslash in octal or hexadecimal and no universal character
    name. -/
def safe : List Piece → Bool
  | [] => true
  | .char c :: pieces => c ≠ 'u' && c ≠ 'U' && c.toNat < 128 && plain pieces
  | .pair :: pieces => safe pieces
  | .unknown c :: pieces => c.toNat ≠ 0 && c.toNat < 128 && plain pieces
  | _ => false

end

theorem codePiece_value {n : Nat} (h : n < 128) : (codePiece n).value = [Char.ofNat n] ∧
    (codePiece n).denotes = [Char.ofNat n] ∧ (codePiece n).Valid := by
  unfold codePiece
  split_ifs with hn
  · subst hn
    exact ⟨rfl, rfl, trivial⟩
  · refine ⟨rfl, rfl, fun heq => hn ?_⟩
    have hnat := congrArg Char.toNat heq
    rwa [toNat_ofNat_of_isValidChar (.inl (by omega))] at hnat

/-- The pieces say what is stored and what is denoted. -/
theorem piece_spec {token : Token} (hvalid : token.Valid) (hstandard : token.Standard) :
    token.piece.value = token.value ∧ token.piece.denotes = token.denotes ∧ token.piece.Valid := by
  cases token with
  | backslash => exact ⟨rfl, rfl, trivial⟩
  | ansi c =>
    refine ⟨rfl, rfl, ?_⟩
    change ansiCode c ≠ '\\'
    unfold ansiCode
    split <;> decide
  | octal | hexadecimal => exact codePiece_value hstandard
  | universal c digits => exact ⟨rfl, rfl, hvalid.1, hvalid.2.1, hvalid.2.2, hstandard⟩
  | text | blank | quoted | unknown => exact ⟨rfl, rfl, hvalid⟩

/-! ## How a value is read -/

section

variable {v bytes : Text}

theorem Reads.of_char {c : Char} (hc : c ≠ '\\') (h : Reads (c :: v) bytes) :
    ∃ bytes', bytes = c :: bytes' ∧ Reads v bytes' := by
  cases h with
  | char _ h => exact ⟨_, rfl, h⟩
  | escape => exact absurd rfl hc

theorem Reads.of_chars {x : Text} (hx : ∀ c ∈ x, c ≠ '\\') (h : Reads (x ++ v) bytes) :
    ∃ bytes', bytes = x ++ bytes' ∧ Reads v bytes' := by
  induction x generalizing bytes with
  | nil => exact ⟨bytes, rfl, h⟩
  | cons c x ih =>
    rw [forall_mem_cons] at hx
    obtain ⟨bytes', rfl, h'⟩ := h.of_char hx.1
    obtain ⟨bytes'', rfl, h''⟩ := ih hx.2 h'
    exact ⟨bytes'', rfl, h''⟩

theorem Reads.of_escape (h : Reads ('\\' :: v) bytes) :
    ∃ cs rest bytes', readEscape v = some (cs, rest) ∧ bytes = cs.flatMap utf8 ++ bytes' ∧
      Reads rest bytes' := by
  cases h with
  | char hc => exact absurd rfl hc
  | escape hescape h => exact ⟨_, _, _, hescape, rfl, h⟩

theorem reads_char_iff {c : Char} (hc : c ≠ '\\') :
    Reads (c :: v) (c :: bytes) ↔ Reads v bytes := by
  refine ⟨fun h => ?_, .char hc⟩
  obtain ⟨bytes', heq, h'⟩ := h.of_char hc
  cases heq
  exact h'

theorem Reads.of_end (h : Reads ['\\'] bytes) : bytes = ['\\'] := by
  obtain ⟨cs, rest, bytes', hescape, rfl, h⟩ := h.of_escape
  cases hescape
  cases h
  rfl

theorem Reads.of_pair (h : Reads ('\\' :: '\\' :: v) bytes) :
    ∃ bytes', bytes = '\\' :: bytes' ∧ Reads v bytes' := by
  obtain ⟨cs, rest, bytes', hescape, rfl, h⟩ := h.of_escape
  cases hescape
  exact ⟨bytes', rfl, h⟩

theorem reads_pair_iff : Reads ('\\' :: '\\' :: v) ('\\' :: bytes) ↔ Reads v bytes := by
  refine ⟨fun h => ?_, @Reads.escape _ _ _ ['\\'] rfl⟩
  obtain ⟨bytes', heq, h'⟩ := h.of_pair
  cases heq
  exact h'

variable {d : Char}

theorem Reads.of_other (hd : d ≠ '\\' ∧ d ≠ 'u' ∧ d ≠ 'U') (h : Reads ('\\' :: d :: v) bytes) :
    d.toNat < 128 ∧ ∃ bytes', bytes = '\\' :: d :: bytes' ∧ Reads v bytes' := by
  obtain ⟨cs, rest, bytes', hescape, rfl, h⟩ := h.of_escape
  unfold readEscape at hescape
  dsimp only at hescape
  rw [if_neg hd.1, if_neg (not_or.mpr hd.2)] at hescape
  split_ifs at hescape with hascii
  cases hescape
  refine ⟨hascii, bytes', ?_, h⟩
  rw [flatMap_cons, flatMap_singleton, utf8_ascii hascii]
  rfl

theorem Reads.of_universal (hd : d = 'u' ∨ d = 'U') (h : Reads ('\\' :: d :: v) bytes) :
    ∃ n c bytes',
    universalSize d ≤ v.length ∧ stoll 16 (v.take (universalSize d)) = some n ∧
    codePoint n = some c ∧
      bytes = utf8 c ++ bytes' ∧ Reads (v.drop (universalSize d)) bytes' := by
  obtain ⟨cs, rest, bytes', hescape, rfl, h⟩ := h.of_escape
  have hne : d ≠ '\\' := by rcases hd with rfl | rfl <;> decide
  unfold readEscape at hescape
  dsimp only at hescape
  rw [if_neg hne, if_pos hd] at hescape
  split_ifs at hescape with hsize
  obtain ⟨n, hn, hescape⟩ := Option.bind_eq_some_iff.mp hescape
  obtain ⟨c, hc, hescape⟩ := Option.bind_eq_some_iff.mp hescape
  cases hescape
  rw [length_take] at hsize
  exact ⟨n, c, bytes', by omega, hn, hc, by rw [flatMap_singleton], h⟩

end

/-! ## Marks

Control characters and backslashes mark positions in what a literal denotes: the generator may lose
some, but it never adds one. -/

def isMark (c : Char) : Bool := c = '\\' || c.toNat < 32

def marks (s : Text) : Nat := s.countP isMark

theorem marks_append (s t : Text) : marks (s ++ t) = marks s + marks t := countP_append

theorem marks_cons (c : Char) (s : Text) : marks (c :: s) = marks [c] + marks s :=
  marks_append [c] s

theorem marks_singleton_le (c : Char) : marks [c] ≤ 1 := countP_le_length

theorem marks_eq_zero {s : Text} (h : ∀ c ∈ s, isMark c = false) : marks s = 0 := by
  rw [marks, countP_eq_zero]
  intro c hc
  rw [h c hc]
  decide

theorem marks_utf8 (c : Char) : marks (utf8 c) = marks [c] := by
  by_cases hc : c.toNat < 128
  · rw [utf8_ascii hc]
  · have hmark : ∀ b : Char, 128 ≤ b.toNat → isMark b = false := by
      intro b hb
      have hne : b ≠ '\\' := by
        rintro rfl
        exact absurd hb (by decide)
      simp [isMark, hne]
      omega
    rw [marks_eq_zero fun b hb => hmark b (utf8_bytes (Nat.le_of_not_lt hc) b hb).1,
      marks_eq_zero fun b hb => hmark b (mem_singleton.mp hb ▸ Nat.le_of_not_lt hc)]

variable {c : Char}

theorem utf8_of_mark (h : isMark c = true) : utf8 c = [c] := by
  apply utf8_ascii
  simp only [isMark, Bool.or_eq_true, decide_eq_true_eq] at h
  rcases h with rfl | h
  · decide
  · omega

theorem marks_not_mark (h : ¬ isMark c = true) : marks [c] = 0 := countP_singleton.trans (if_neg h)

theorem hexValue_not_mark (h : (hexValue d).isSome) : isMark d = false := by
  obtain ⟨x, hx⟩ := Option.isSome_iff_exists.mp h
  obtain ⟨hge, -, hne, -⟩ := hexValue_range hx
  simp [isMark, hne]
  omega

/-- The first marks of two equal texts are at the same position. -/
theorem length_eq_of_mark {z1 z2 x y : Text} {a b : Char} (hz1 : marks z1 = 0) (hz2 : marks z2 = 0)
    (ha : isMark a = true) (hb : isMark b = true) (h : z1 ++ a :: x = z2 ++ b :: y) :
    z1.length = z2.length := by
  induction z1 generalizing z2 with
  | nil =>
    cases z2 with
    | nil => rfl
    | cons c z2 =>
      obtain ⟨rfl, -⟩ := cons.inj h
      exact absurd ha (countP_eq_zero.mp hz2 a mem_cons_self)
  | cons c z1 ih =>
    cases z2 with
    | nil =>
      obtain ⟨rfl, -⟩ := cons.inj h
      exact absurd hb (countP_eq_zero.mp hz1 c mem_cons_self)
    | cons d z2 =>
      rw [marks_cons, Nat.add_eq_zero_iff] at hz1 hz2
      exact congrArg Nat.succ (ih hz1.2 hz2.2 (cons.inj h).2)

/-- A piece of which a character is lost. -/
def Piece.lost : Piece → Bool
  | .unknown c => c.toNat = 0
  | .blank _ => true
  | _ => false

/-- An unknown escape sequence is read like an escaped backslash and the character, which is lost if
    it is null. -/
def Piece.parts : Piece → List Piece
  | .unknown c => [.pair, if c.toNat = 0 then .blank [c] else .char c]
  | p => [p]

theorem stored_cons (p : Piece) (pieces : List Piece) :
    stored (p :: pieces) = p.value ++ stored pieces := rfl

theorem marks_meaning_cons (p : Piece) (pieces : List Piece) :
    marks (meaning (p :: pieces)) = marks p.denotes + marks (meaning pieces) := marks_append _ _

/-- The marks that are read at some position of a value, and those that are read behind a
    backslash. -/
structure Bounded (pieces : List Piece) : Prop where
  reads : ∀ k bytes, Reads ((stored pieces).drop k) bytes →
    marks bytes + pieces.countP Piece.lost ≤ marks (meaning pieces)
  pending : ∀ bytes, Reads ('\\' :: stored pieces) bytes →
    marks bytes + pieces.countP Piece.lost ≤ marks (meaning pieces) + 1

variable {pieces : List Piece}

open Piece

theorem Bounded.start (h : Bounded pieces) {bytes : Text} (hreads : Reads (stored pieces) bytes) :
    marks bytes + pieces.countP lost ≤ marks (meaning pieces) := h.reads 0 bytes hreads

theorem lost_le_marks {p : Piece} (hvalid : p.Valid) : [p].countP lost ≤ marks p.denotes := by
  cases p with
  | unknown c =>
    have hpos : 0 < marks ['\\', c] := countP_pos_iff.mpr ⟨'\\', mem_cons_self, rfl⟩
    exact countP_le_length.trans hpos
  | blank cs =>
    obtain ⟨c, hmem, hc⟩ := hvalid
    have hpos : 0 < marks cs := countP_pos_iff.mpr ⟨c, hmem, by simp [isMark, hc]⟩
    exact countP_le_length.trans hpos
  | _ => exact Nat.zero_le _

theorem lost_cons (p : Piece) (pieces : List Piece) :
    (p :: pieces).countP lost = [p].countP lost + pieces.countP lost :=
  @List.countP_append _ _ [p] pieces

variable {digits : Text}

/-- The characters of a universal character name are no marks. -/
theorem universal_chars (hvalid : (universal c digits).Valid) :
    ∀ d ∈ c :: digits, isMark d = false := by
  refine forall_mem_cons.mpr ⟨?_, fun d hd => hexValue_not_mark (hvalid.2.2.1 d hd)⟩
  rcases hvalid.1 with rfl | rfl <;> rfl

theorem ne_backslash_of_not_mark (h : isMark c = false) : c ≠ '\\' := by
  rintro rfl
  cases h

theorem marks_backslash (s : Text) : marks ('\\' :: s) = 1 + marks s := marks_cons _ s

/-! ## Universal character names -/

theorem isSpace_of_hexValue (h : (hexValue d).isSome) : isSpace d = false := by
  obtain ⟨x, hx⟩ := Option.isSome_iff_exists.mp h
  obtain ⟨hge, -⟩ := hexValue_range hx
  have hne : d ≠ ' ' := by
    rintro rfl
    cases h
  simp only [isSpace, hne, decide_false, Bool.false_or, Bool.and_eq_false_iff,
    decide_eq_false_iff_not]
  omega

/-- `stoll` of hexadecimal digits, with anything else behind them. -/
theorem stoll_digits {ds rest : Text} (hds : ∀ d ∈ ds, (hexValue d).isSome) (hne : ds ≠ [])
    (hrest : ∀ d ∈ rest.head?, hexValue d = none ∧ d ≠ 'x' ∧ d ≠ 'X') :
    stoll 16 (ds ++ rest) = some (number 16 ds : Int) := by
  cases ds with
  | nil => exact absurd rfl hne
  | cons d ds =>
    have hd := hds d mem_cons_self
    have hspace := isSpace_of_hexValue hd
    have hsign : ¬ ((d :: ds ++ rest).head? = some '-' ∨ (d :: ds ++ rest).head? = some '+') := by
      rintro (heq | heq) <;> cases heq <;> cases hd
    have hskip : skipPrefix16 (d :: ds ++ rest) = d :: ds ++ rest := by
      unfold skipPrefix16
      split
      · next x e s' heq =>
        refine if_neg fun hx => ?_
        have hx' : (hexValue x).isSome ∨ x ∈ rest.head? := by
          cases ds with
          | nil =>
            obtain ⟨-, heq⟩ := cons.inj heq
            exact .inr (by rw [show rest = x :: e :: s' from heq]; rfl)
          | cons d' ds =>
            obtain ⟨-, heq⟩ := cons.inj heq
            obtain ⟨rfl, -⟩ := cons.inj heq
            exact .inl (hds d' (by simp))
        rcases hx' with hsome | hmem
        · rcases hx.1 with rfl | rfl <;> cases hsome
        · rcases hx.1 with rfl | rfl
          · exact (hrest _ hmem).2.1 rfl
          · exact (hrest _ hmem).2.2 rfl
      · rfl
    have htake : (d :: ds ++ rest).takeWhile (fun c => (digit 16 c).isSome) = d :: ds := by
      rw [takeWhile_append_of_pos (p := fun c => (digit 16 c).isSome) fun c hc => hds c hc]
      cases rest with
      | nil => simp
      | cons e rest =>
        have he : (digit 16 e).isSome = false := by
          rw [show digit 16 e = hexValue e from rfl, (hrest e rfl).1]
          rfl
        rw [takeWhile_cons_of_neg (by rw [he]; decide), append_nil]
    unfold stoll
    dsimp only
    rw [cons_append, dropWhile_cons_of_neg (by rw [hspace]; decide), ← cons_append,
      if_neg hsign, if_pos rfl, hskip, htake, if_neg nofun, if_neg fun hneg => hsign (.inl hneg)]

theorem codePoint_number {n : Nat} (h : n.isValidChar) : codePoint n = some (Char.ofNat n) := by
  unfold codePoint toChar
  by_cases hn : (n : Int) < 128
  · have hmod : ((n : Int) % 256).toNat = n := by omega
    rw [if_pos hn, hmod, if_pos]
    rw [toNat_ofNat_of_isValidChar h]
    omega
  · rw [if_neg hn, Int.toNat_natCast, if_pos h]

theorem readEscape_universal (hvalid : (universal c digits).Valid) (v : Text) :
    readEscape (c :: (digits ++ v)) = some ([Char.ofNat (number 16 digits)], v) := by
  obtain ⟨hc, hsize, hdigits, hchar⟩ := hvalid
  have hne : c ≠ '\\' := by rcases hc with rfl | rfl <;> decide
  have hnil : digits ≠ [] := by
    rintro rfl
    rcases hc with rfl | rfl <;> cases hsize
  have hstoll := @stoll_digits digits [] hdigits hnil nofun
  rw [append_nil] at hstoll
  unfold readEscape
  dsimp only
  rw [if_neg hne, if_pos hc, take_left' hsize, if_pos hsize, drop_left' hsize, hstoll]
  simp only [Option.bind_eq_bind, Option.bind_some, codePoint_number hchar]
  rfl

open Reads

theorem Reads.of_name {v bytes : Text} (hvalid : (universal c digits).Valid)
    (h : Reads ((universal c digits).value ++ v) bytes) :
    ∃ bytes', bytes = (universal c digits).denotes ++ bytes' ∧ Reads v bytes' := by
  obtain ⟨cs, rest, bytes', hescape, rfl, h'⟩ := of_escape h
  change readEscape (c :: (digits ++ v)) = _ at hescape
  rw [readEscape_universal hvalid] at hescape
  cases hescape
  exact ⟨bytes', by rw [flatMap_singleton]; rfl, h'⟩

section

variable {p : Piece} {pieces : List Piece} {bytes : Text}

theorem Bounded.pending_cons (h : Bounded pieces) (hvalid : p.Valid) (hparts : p.parts = [p])
    (hreads : Reads ('\\' :: stored (p :: pieces)) bytes) :
    marks bytes + (p :: pieces).countP lost ≤ marks (meaning (p :: pieces)) + 1 := by
  have hle := lost_le_marks hvalid
  rw [lost_cons, marks_meaning_cons]
  cases p with
  | char c =>
    have hlost : [char c].countP lost = 0 := rfl
    by_cases hu : c = 'u' ∨ c = 'U'
    · obtain ⟨n, x, bytes', -, -, -, rfl, hrest⟩ := hreads.of_universal hu
      have hmarks := h.reads _ _ hrest
      have hx := marks_singleton_le x
      rw [marks_append, marks_utf8]
      omega
    · obtain ⟨-, bytes', rfl, hrest⟩ := hreads.of_other ⟨hvalid, not_or.mp hu⟩
      have hmarks := h.start hrest
      rw [marks_backslash, marks_cons, Piece.denotes]
      omega
  | raw =>
    obtain ⟨bytes', rfl, hrest⟩ := hreads.of_pair
    have hmarks := h.start hrest
    rw [marks_backslash]
    omega
  | pair =>
    have hlost : [pair].countP lost = 0 := rfl
    have hdenotes : marks pair.denotes = 1 := rfl
    obtain ⟨bytes', rfl, hrest⟩ := hreads.of_pair
    have hmarks := h.pending _ hrest
    rw [marks_backslash]
    omega
  | universal c digits =>
    obtain ⟨bytes', rfl, hrest⟩ := hreads.of_pair
    have hchars := universal_chars hvalid
    obtain ⟨bytes'', rfl, hrest'⟩ :=
      of_chars (x := c :: digits) (fun d hd => ne_backslash_of_not_mark (hchars d hd)) hrest
    have hmarks := h.start hrest'
    rw [marks_backslash, marks_append, marks_eq_zero hchars]
    omega
  | unknown c => cases hparts
  | blank cs =>
    have hmarks := h.pending _ hreads
    omega

/-- What is read at a position inside of a piece. -/
theorem Bounded.reads_inside (h : Bounded pieces) (hvalid : p.Valid) (hparts : p.parts = [p])
    {k : Nat} (hk : k < p.value.length) (hreads : Reads (p.value.drop k ++ stored pieces) bytes) :
    marks bytes + (p :: pieces).countP lost ≤ marks (meaning (p :: pieces)) := by
  rw [lost_cons, marks_meaning_cons]
  cases p with
  | char c =>
    have hlost : [char c].countP lost = 0 := rfl
    obtain rfl : k = 0 := Nat.lt_one_iff.mp hk
    obtain ⟨bytes', rfl, hrest⟩ := hreads.of_char hvalid
    have hmarks := h.start hrest
    rw [marks_cons, Piece.denotes]
    omega
  | raw =>
    have hlost : [raw].countP lost = 0 := rfl
    have hdenotes : marks raw.denotes = 1 := rfl
    obtain rfl : k = 0 := Nat.lt_one_iff.mp hk
    have hmarks := h.pending _ hreads
    omega
  | pair =>
    have hlost : [pair].countP lost = 0 := rfl
    have hdenotes : marks pair.denotes = 1 := rfl
    match k, hk with
    | 0, _ =>
      obtain ⟨bytes', rfl, hrest⟩ := hreads.of_pair
      have hmarks := h.start hrest
      rw [marks_backslash]
      omega
    | 1, _ =>
      have hmarks := h.pending _ hreads
      omega
  | universal c digits =>
    have hlost : [universal c digits].countP lost = 0 := rfl
    have hchars := universal_chars hvalid
    cases k with
    | zero =>
      obtain ⟨bytes', rfl, hrest⟩ := of_name hvalid hreads
      have hmarks := h.start hrest
      rw [marks_append]
      omega
    | succ k =>
      have hsuffix : ∀ d ∈ (c :: digits).drop k, isMark d = false :=
        fun d hd => hchars d (mem_of_mem_drop hd)
      obtain ⟨bytes', rfl, hrest⟩ :=
        of_chars (fun d hd => ne_backslash_of_not_mark (hsuffix d hd)) hreads
      have hmarks := h.start hrest
      rw [marks_append, marks_eq_zero hsuffix]
      omega
  | unknown c => cases hparts
  | blank cs => exact absurd hk (Nat.not_lt_zero _)

end

theorem bounded (hvalid : ∀ p ∈ pieces, p.Valid ∧ p.parts = [p]) : Bounded pieces := by
  induction pieces with
  | nil =>
    refine ⟨fun k bytes h => ?_, fun bytes h => ?_⟩
    · rw [show (stored []).drop k = [] from drop_nil] at h
      cases h
      decide
    · rw [of_end h]
      decide
  | cons p pieces ih =>
    rw [forall_mem_cons] at hvalid
    have h := ih hvalid.2
    refine ⟨fun k bytes hreads => ?_, fun bytes hreads =>
      h.pending_cons hvalid.1.1 hvalid.1.2 hreads⟩
    rw [stored_cons, drop_append] at hreads
    by_cases hk : k < p.value.length
    · rw [Nat.sub_eq_zero_of_le (Nat.le_of_lt hk), drop_zero] at hreads
      exact h.reads_inside hvalid.1.1 hvalid.1.2 hk hreads
    · rw [drop_of_length_le (Nat.le_of_not_lt hk), nil_append] at hreads
      have hmarks := h.reads _ _ hreads
      have hlost := lost_le_marks hvalid.1.1
      rw [lost_cons, marks_meaning_cons]
      omega

/-! ## Where a value is not what is denoted -/

/-- A piece of which no character is lost. -/
def Piece.Kept (p : Piece) : Prop := p.Valid ∧ p.lost = false

/-- A piece that is read as it is. -/
def Piece.Simple (p : Piece) : Prop := p.Kept ∧ p.parts = [p]

section

variable {pieces : List Piece} (hkept : ∀ p ∈ pieces, p.Simple)

include hkept

theorem kept_bounded : Bounded pieces := bounded fun p hp => ⟨(hkept p hp).1.1, (hkept p hp).2⟩

/-- Behind a backslash a mark is read first, or a mark is lost. -/
theorem mark_or_lost {bytes : Text} (h : Reads ('\\' :: stored pieces) bytes) :
    (∃ a bytes', isMark a = true ∧ bytes = a :: bytes') ∨ marks bytes ≤ marks (meaning pieces) := by
  have hmark : isMark '\\' = true := rfl
  cases pieces with
  | nil => exact .inl ⟨_, _, hmark, h.of_end⟩
  | cons p pieces =>
    rw [forall_mem_cons] at hkept
    cases p with
    | char c =>
      by_cases hu : c = 'u' ∨ c = 'U'
      · obtain ⟨n, x, bytes', -, -, -, rfl, hrest⟩ := h.of_universal hu
        by_cases hx : isMark x = true
        · refine .inl ⟨x, bytes', hx, ?_⟩
          rw [utf8_of_mark hx, singleton_append]
        · refine .inr ?_
          have hmarks := (kept_bounded hkept.2).reads _ _ hrest
          rw [marks_append, marks_utf8, marks_meaning_cons, marks_not_mark hx]
          omega
      · obtain ⟨-, bytes', rfl, -⟩ := h.of_other ⟨hkept.1.1.1, not_or.mp hu⟩
        exact .inl ⟨_, _, hmark, rfl⟩
    | raw | pair | universal =>
      obtain ⟨bytes', rfl, -⟩ := h.of_pair
      exact .inl ⟨_, _, hmark, rfl⟩
    | unknown c => cases hkept.1.2
    | blank cs => cases hkept.1.1.2

/-- What is read and what is denoted have their first mark at the same position. -/
theorem length_eq_of_reads {bytes z1 z2 : Text} (hz1 : marks z1 = 0) (hz2 : marks z2 = 0)
    (h : Reads (stored pieces) bytes) (heq : z1 ++ meaning pieces = z2 ++ bytes) :
    z1.length = z2.length := by
  have hmark : isMark '\\' = true := rfl
  induction pieces generalizing bytes z1 z2 with
  | nil =>
    cases h
    exact congrArg length (append_cancel_right heq)
  | cons p pieces ih =>
    rw [forall_mem_cons] at hkept
    -- a character that is no mark belongs to both texts before the first mark
    have hchars : ∀ {x : Text} {bytes' : Text}, marks x = 0 → Reads (stored pieces) bytes' →
        z1 ++ (x ++ meaning pieces) = z2 ++ (x ++ bytes') → z1.length = z2.length := by
      intro x bytes' hx hreads heq
      rw [← append_assoc, ← append_assoc] at heq
      have hlength := ih hkept.2 (by rw [marks_append, hz1, hx])
        (by rw [marks_append, hz2, hx]) hreads heq
      rw [length_append, length_append] at hlength
      omega
    cases p with
    | char c =>
      obtain ⟨bytes', rfl, hrest⟩ := h.of_char hkept.1.1.1
      by_cases hc : isMark c = true
      · exact length_eq_of_mark hz1 hz2 hc hc heq
      · exact hchars (x := [c]) (marks_not_mark hc) hrest heq
    | raw =>
      have hbytes := mark_or_lost hkept.2 h
      rcases hbytes with ⟨a, bytes', ha, rfl⟩ | hlost
      · exact length_eq_of_mark hz1 hz2 hmark ha heq
      · have hmarks := congrArg marks heq
        have hraw : marks raw.denotes = 1 := rfl
        rw [marks_append, marks_append, marks_meaning_cons] at hmarks
        omega
    | pair =>
      obtain ⟨bytes', rfl, -⟩ := h.of_pair
      exact length_eq_of_mark hz1 hz2 hmark hmark heq
    | universal c digits =>
      obtain ⟨bytes', rfl, hrest⟩ := of_name hkept.1.1.1 h
      have hdenotes : (universal c digits).denotes = utf8 (Char.ofNat (number 16 digits)) := rfl
      by_cases hx : isMark (Char.ofNat (number 16 digits)) = true
      · change z1 ++ ((universal c digits).denotes ++ meaning pieces) = _ at heq
        rw [hdenotes, utf8_of_mark hx] at heq
        exact length_eq_of_mark hz1 hz2 hx hx heq
      · refine hchars (x := (universal c digits).denotes) ?_ hrest heq
        rw [hdenotes, marks_utf8, marks_not_mark hx]
    | unknown c => cases hkept.1.2
    | blank cs => cases hkept.1.1.2

/-- A mark that is denoted where none is read is lost for good. -/
theorem not_reads_of_mark {k : Nat} {z x : Text} (hx : 1 ≤ marks x) :
    ¬ Reads ((stored pieces).drop k) (z ++ (x ++ meaning pieces)) := by
  intro h
  have hmarks := (kept_bounded hkept).reads _ _ h
  rw [marks_append, marks_append] at hmarks
  omega

end

/-- A universal character name that is cut behind its backslash: its value is too large for its own
    last digit. -/
theorem not_cut_name {taken w : Text} (hvalid : (universal d digits).Valid)
    (hsize : taken.length + 1 = universalSize d) (hshorter : w = taken ∨ w.length < taken.length)
    (hnumber : ∃ n, stoll 16 (taken ++ ['\\']) = some n ∧ codePoint n = some '\\')
    (heq : w ++ utf8 (Char.ofNat (number 16 digits)) = digits) : False := by
  obtain ⟨hd, hlength, hdigits, hchar⟩ := hvalid
  generalize hx : Char.ofNat (number 16 digits) = x at heq
  have hxnat : x.toNat = number 16 digits := by rw [← hx, toNat_ofNat_of_isValidChar hchar]
  have hascii : x.toNat < 128 := by
    by_contra hnot
    obtain ⟨b, bs, hutf8, -⟩ := utf8_cons x
    have hb := utf8_bytes (Nat.le_of_not_lt hnot) b (by rw [hutf8]; exact mem_cons_self)
    obtain ⟨y, hy⟩ := Option.isSome_iff_exists.mp (hdigits b (by rw [← heq, hutf8]; simp))
    have hrange := hexValue_range hy
    omega
  rw [utf8_ascii hascii] at heq
  rw [← heq, length_append, length_singleton] at hlength
  obtain rfl : w = taken := hshorter.resolve_right (by omega)
  have hw : ∀ y ∈ w, (hexValue y).isSome :=
    fun y hy => hdigits y (by rw [← heq]; exact mem_append_left _ hy)
  have hnil : w ≠ [] := by
    rintro rfl
    rcases hd with rfl | rfl <;> cases hsize
  obtain ⟨n, hn, hc⟩ := hnumber
  have hend : ∀ y ∈ ['\\'].head?, hexValue y = none ∧ y ≠ 'x' ∧ y ≠ 'X' := by
    rintro y ⟨⟩
    exact ⟨rfl, by decide, by decide⟩
  rw [stoll_digits hw hnil hend] at hn
  cases hn
  have hbackslash : number 16 w = 92 := by
    unfold codePoint toChar at hc
    split_ifs at hc with hsmall hlow hvalid
    · have hnat := congrArg Char.toNat (Option.some.inj hc)
      rw [toNat_ofNat_of_isValidChar (.inl (by omega))] at hnat
      change _ = 92 at hnat
      omega
    · have hnat := congrArg Char.toNat (Option.some.inj hc)
      rw [toNat_ofNat_of_isValidChar hvalid] at hnat
      change _ = 92 at hnat
      omega
  rw [← heq, number_append, hbackslash] at hxnat
  omega

theorem letter_not_mark (hd : d = 'u' ∨ d = 'U') : isMark d = false ∧ hexValue d = none := by
  rcases hd with rfl | rfl <;> exact ⟨rfl, rfl⟩

/-- A backslash that is followed by a letter `d` and taken for a universal character name. The next
    `k` characters belong to its digits, those of `taken` did, and `w` is what they denote. -/
structure Taken (d : Char) (pieces : List Piece) (k : Nat) (taken w : Text) : Prop where
  unmarked : marks w = 0
  size : taken.length + k = universalSize d
  number : ∃ n, stoll 16 (taken ++ (stored pieces).take k) = some n ∧ codePoint n = some '\\'
  shorter : w = taken ∨ w.length < taken.length
  enough : k ≤ (stored pieces).length
  reads : Reads ((stored pieces).drop k) ((d :: w) ++ meaning pieces)

section

variable {d : Char} {p : Piece} {pieces : List Piece} {k : Nat} {taken w : Text}

/-- The digits go on behind a piece. -/
theorem Taken.next (h : Taken d (p :: pieces) k taken w) (hlength : p.value.length ≤ k)
    (hmarks : marks p.denotes = 0)
    (hdenotes : p.denotes = p.value ∨ p.denotes.length < p.value.length) :
    Taken d pieces (k - p.value.length) (taken ++ p.value) (w ++ p.denotes) where
  unmarked := by rw [marks_append, h.unmarked, hmarks]
  size := by
    have hsize := h.size
    rw [length_append]
    omega
  number := by
    obtain ⟨n, hn, hcode⟩ := h.number
    rw [stored_cons, take_append, take_of_length_le hlength, ← append_assoc] at hn
    exact ⟨n, hn, hcode⟩
  shorter := by
    rw [length_append, length_append]
    rcases h.shorter with rfl | hw <;> rcases hdenotes with heq | hp
    · exact .inl (by rw [heq])
    · exact .inr (by omega)
    · exact .inr (by rw [heq]; omega)
    · exact .inr (by omega)
  enough := by
    have henough := h.enough
    rw [stored_cons, length_append] at henough
    omega
  reads := by
    have hreads := h.reads
    rw [stored_cons, drop_append, drop_of_length_le hlength, nil_append] at hreads
    change Reads _ (d :: w ++ (p.denotes ++ meaning pieces)) at hreads
    rwa [← append_assoc] at hreads

/-- The digits end inside of a piece. -/
theorem Taken.inside (h : Taken d (p :: pieces) k taken w) (hlength : k < p.value.length) :
    Reads (p.value.drop k ++ stored pieces) (d :: w ++ (p.denotes ++ meaning pieces)) := by
  have hreads := h.reads
  rwa [stored_cons, drop_append, Nat.sub_eq_zero_of_le (Nat.le_of_lt hlength), drop_zero] at hreads

/-- The digits end inside of a universal character name. -/
theorem not_taken_name (hd : d = 'u' ∨ d = 'U') {c : Char} {digits : Text}
    (hkept : (universal c digits).Kept)
    (hrest : ∀ p ∈ pieces, p.Simple) (hlength : k + 1 < (universal c digits).value.length) :
    ¬ Taken d (.universal c digits :: pieces) (k + 1) taken w := by
  intro h
  obtain ⟨hletter, hhex⟩ := letter_not_mark hd
  have hchars := universal_chars hkept.1
  have hsuffix : ∀ y ∈ (c :: digits).drop k, isMark y = false :=
    fun y hy => hchars y (mem_of_mem_drop hy)
  obtain ⟨bytes', heq, hreads⟩ := of_chars (x := (c :: digits).drop k)
    (fun y hy => ne_backslash_of_not_mark (hsuffix y hy)) (h.inside hlength)
  have hz :
      marks (d :: w) = 0 := by rw [marks_cons, marks_not_mark (by rw [hletter]; decide), h.unmarked]
  have hmarks := (kept_bounded hrest).start hreads
  have heqmarks := congrArg marks heq
  rw [marks_append, marks_append, marks_append, hz, marks_eq_zero hsuffix] at heqmarks
  have hzero : marks (universal c digits).denotes = 0 := by omega
  rw [← append_assoc] at heq
  have heqlength := length_eq_of_reads hrest (by rw [marks_append, hz, hzero])
    (marks_eq_zero hsuffix) hreads heq
  have hname := (append_inj heq heqlength).1
  cases k with
  | zero =>
    obtain ⟨rfl, hdigits⟩ := cons.inj hname
    exact not_cut_name hkept.1 h.size h.shorter h.number hdigits
  | succ k =>
    have hmem : d ∈ digits := mem_of_mem_drop (i := k) (by
      rw [show digits.drop k = (c :: digits).drop (k + 1) from rfl, ← hname]
      exact mem_cons_self)
    have hsome := hkept.1.2.2.1 d hmem
    rw [hhex] at hsome
    cases hsome

end

/-- The digits are no part of what is read, but of what is denoted. -/
theorem not_taken (hd : d = 'u' ∨ d = 'U') (hkept : ∀ p ∈ pieces, p.Simple) {k : Nat}
    {taken w : Text} :
    ¬ Taken d pieces k taken w := by
  obtain ⟨hletter, hhex⟩ := letter_not_mark hd
  induction pieces generalizing k taken w with
  | nil =>
    rintro ⟨-, -, -, -, henough, hreads⟩
    obtain rfl : k = 0 := Nat.le_zero.mp henough
    cases hreads
  | cons p pieces ih =>
    intro h
    have hz :
        marks (d :: w) =
        0 := by rw [marks_cons, marks_not_mark (by rw [hletter]; decide), h.unmarked]
    cases k with
    | zero =>
      have hlength := length_eq_of_reads hkept hz (rfl : marks [] = 0) h.reads rfl
      cases hlength
    | succ k =>
      rw [forall_mem_cons] at hkept
      by_cases hlength : p.value.length ≤ k + 1
      · by_cases hmarks : marks p.denotes = 0
        · refine ih hkept.2 (h.next hlength hmarks ?_)
          cases p with
          | char c => exact .inl rfl
          | universal c digits =>
            have hle := utf8_length (Char.ofNat (number 16 digits))
            have hsize := hkept.1.1.1.2.1
            refine .inr ?_
            change (utf8 _).length < digits.length + 1 + 1
            unfold universalSize at hsize
            split_ifs at hsize <;> omega
          | unknown c => cases hkept.1.2
          | blank cs => cases hkept.1.1.2
          | raw => cases hmarks
          | pair => cases hmarks
        · have hreads := h.reads
          rw [stored_cons, drop_append, drop_of_length_le hlength, nil_append] at hreads
          exact not_reads_of_mark hkept.2 (Nat.one_le_iff_ne_zero.mpr hmarks) hreads
      · have hinside := h.inside (Nat.lt_of_not_le hlength)
        cases p with
        | char | raw => exact hlength (Nat.le_add_left 1 k)
        | pair =>
          obtain rfl : k = 0 := by
            change ¬ 2 ≤ k + 1 at hlength
            omega
          rcases mark_or_lost hkept.2 hinside with ⟨a, bytes', ha, heq⟩ | hlost
          · obtain ⟨rfl, -⟩ := cons.inj heq
            rw [hletter] at ha
            cases ha
          · have hpair : marks pair.denotes = 1 := rfl
            rw [marks_append, marks_append] at hlost
            omega
        | universal c digits =>
          exact not_taken_name hd hkept.1.1 hkept.2 (Nat.lt_of_not_le hlength) h
        | unknown c => cases hkept.1.2
        | blank cs => cases hkept.1.1.2

/-- A universal character name is not read behind a backslash. -/
theorem not_reads_name (hkept : (universal c digits).Kept) (hrest : ∀ p ∈ pieces, p.Simple) :
    ¬ Reads (c :: digits ++ stored pieces) ((universal c digits).denotes ++ meaning pieces) := by
  intro h
  have hchars := universal_chars hkept.1
  obtain ⟨bytes', heq, hreads⟩ := of_chars (fun d hd => ne_backslash_of_not_mark (hchars d hd)) h
  change utf8 (Char.ofNat (number 16 digits)) ++ meaning pieces = c :: digits ++ bytes' at heq
  by_cases hx : isMark (Char.ofNat (number 16 digits)) = true
  · rw [utf8_of_mark hx] at heq
    rw [(cons.inj heq).1, hchars c mem_cons_self] at hx
    cases hx
  · have hlength := length_eq_of_reads hrest (by rw [marks_utf8, marks_not_mark hx])
      (marks_eq_zero hchars) hreads heq
    have hle := utf8_length (Char.ofNat (number 16 digits))
    have hsize := hkept.1.2.1
    rw [length_cons] at hlength
    unfold universalSize at hsize
    split_ifs at hsize <;> omega

/-! ## When the value is kept -/

theorem Reads.other (hc : c ≠ '\\' ∧ c ≠ 'u' ∧ c ≠ 'U') (hascii : c.toNat < 128) {v bytes : Text}
    (h : Reads v bytes) :
    Reads ('\\' :: c :: v) ('\\' :: c :: bytes) := by
  have hescape : readEscape (c :: v) = some (['\\', c], v) := by
    unfold readEscape
    dsimp only
    rw [if_neg hc.1, if_neg (not_or.mpr hc.2), if_pos hascii]
  have hreads := escape hescape h
  rwa [flatMap_cons, flatMap_singleton, utf8_ascii hascii] at hreads

/-- A backslash stays before what is denoted only if no character is lost. -/
theorem simple_of_reads (hvalid : ∀ p ∈ pieces, p.Valid ∧ p.parts = [p])
    (h : Reads ('\\' :: stored pieces) ('\\' :: meaning pieces)) : ∀ p ∈ pieces, p.Simple := by
  intro p hp
  have hmarks := (bounded hvalid).pending _ h
  rw [marks_backslash] at hmarks
  have hlost : pieces.countP lost = 0 := by omega
  exact ⟨⟨(hvalid p hp).1, by simpa using countP_eq_zero.mp hlost p hp⟩, (hvalid p hp).2⟩

/-- What is read is what is denoted if and only if each backslash is followed as it should. -/
theorem reads_iff_of_parts (hvalid : ∀ p ∈ pieces, p.Valid ∧ p.parts = [p]) :
    (Reads (stored pieces) (meaning pieces) ↔ plain pieces = true) ∧
      (Reads ('\\' :: stored pieces) ('\\' :: meaning pieces) ↔ safe pieces = true) := by
  induction pieces with
  | nil => exact ⟨iff_of_true .nil rfl, iff_of_true (@Reads.escape _ _ _ ['\\'] rfl .nil) rfl⟩
  | cons p pieces ih =>
    have hsimple := fun h => forall_mem_cons.mp (simple_of_reads hvalid h)
    have hbounded := bounded hvalid
    rw [forall_mem_cons] at hvalid
    obtain ⟨hplain, hsafe⟩ := ih hvalid.2
    obtain ⟨hvalid, hparts⟩ := hvalid.1
    cases p with
    | char c =>
      refine ⟨(reads_char_iff hvalid).trans hplain, ?_⟩
      by_cases hu : c = 'u' ∨ c = 'U'
      · refine iff_of_false (fun h => ?_) ?_
        · obtain ⟨n, x, bytes', henough, hn, hcode, heq, hrest⟩ := of_universal hu h
          obtain ⟨rfl, rfl⟩ := utf8_append_inj (c := '\\') (p := c :: meaning pieces) heq
          have htaken : Taken c pieces (universalSize c) [] [] :=
            ⟨rfl, Nat.zero_add _, ⟨n, hn, hcode⟩, .inl rfl, henough, hrest⟩
          exact not_taken hu (hsimple h).2 htaken
        · rcases hu with rfl | rfl <;> simp [safe]
      · have hc : c ≠ '\\' ∧ c ≠ 'u' ∧ c ≠ 'U' := ⟨hvalid, not_or.mp hu⟩
        simp only [safe, Bool.and_eq_true, decide_eq_true_eq]
        refine ⟨fun h => ?_, fun h => .other hc h.1.2 (hplain.mpr h.2)⟩
        obtain ⟨hascii, bytes', heq, hrest⟩ := of_other hc h
        cases heq
        exact ⟨⟨hc.2, hascii⟩, hplain.mp hrest⟩
    | raw =>
      refine ⟨hsafe, iff_of_false (fun h => ?_) nofun⟩
      exact not_reads_of_mark (hsimple h).2 (k := 0) (z := []) (x := ['\\']) le_rfl
        (reads_pair_iff.mp h)
    | pair => exact ⟨reads_pair_iff.trans hplain, reads_pair_iff.trans hsafe⟩
    | universal c digits =>
      refine ⟨⟨fun h => ?_, fun h => ?_⟩, iff_of_false (fun h => ?_) nofun⟩
      · obtain ⟨bytes', heq, hrest⟩ := of_name hvalid h
        obtain rfl := append_cancel_left heq
        exact hplain.mp hrest
      · have hreads := escape (readEscape_universal hvalid (stored pieces)) (hplain.mpr h)
        rwa [flatMap_singleton] at hreads
      · exact not_reads_name (hsimple h).1.1 (hsimple h).2 (reads_pair_iff.mp h)
    | unknown c => cases hparts
    | blank cs =>
      refine ⟨iff_of_false (fun h => ?_) nofun, iff_of_false (fun h => ?_) nofun⟩
      · have hmarks := hbounded.start h
        rw [lost_cons, show [blank cs].countP lost = 1 from rfl] at hmarks
        omega
      · cases (hsimple h).1.1.2

/-- The parts of a piece say the same. -/
theorem parts_spec {p : Piece} (hvalid : p.Valid) : p.parts.flatMap Piece.value = p.value ∧
    p.parts.flatMap Piece.denotes = p.denotes ∧ ∀ q ∈ p.parts, q.Valid ∧ q.parts = [q] := by
  cases p with
  | unknown c =>
    unfold Piece.parts Piece.value
    by_cases hc : c.toNat = 0
    · simp [hc, Piece.denotes, Piece.Valid]
    · simp [hc, Piece.denotes, Piece.Valid, hvalid.1]
  | _ => exact ⟨append_nil _, append_nil _, forall_mem_singleton.mpr ⟨hvalid, rfl⟩⟩

theorem plain_parts (hvalid : ∀ p ∈ pieces, p.Valid) : plain (pieces.flatMap parts) = plain pieces ∧
    safe (pieces.flatMap parts) = safe pieces := by
  induction pieces with
  | nil => exact ⟨rfl, rfl⟩
  | cons p pieces ih =>
    rw [forall_mem_cons] at hvalid
    obtain ⟨hplain, hsafe⟩ := ih hvalid.2
    cases p with
    | unknown c =>
      obtain ⟨-, hu, hU⟩ := hvalid.1
      by_cases hc : c.toNat = 0
      · simp [parts, plain, safe, hc]
      · simp [parts, plain, safe, hc, hu, hU, hplain]
    | _ => simp [parts, plain, safe, hplain, hsafe]

theorem reads_iff_plain (hvalid : ∀ p ∈ pieces, p.Valid) :
    Reads (stored pieces) (meaning pieces) ↔ plain pieces = true := by
  have hstored : stored (pieces.flatMap parts) = stored pieces :=
    flatMap_assoc.trans (flatMap_congr fun p hp => (parts_spec (hvalid p hp)).1)
  have hmeaning : meaning (pieces.flatMap parts) = meaning pieces :=
    flatMap_assoc.trans (flatMap_congr fun p hp => (parts_spec (hvalid p hp)).2.1)
  rw [← hstored, ← hmeaning, ← (plain_parts hvalid).1]
  refine (reads_iff_of_parts fun q hq => ?_).1
  obtain ⟨p, hp, hq⟩ := mem_flatMap.mp hq
  exact (parts_spec (hvalid p hp)).2.2 q hq

/-- A string constant has in Swift the value that the literal denotes. -/
def KeepsValue (converter : Converter) (tokens : List Token) : Prop :=
  ∃ cs, cs.flatMap utf8 = denotes tokens ∧
    ∃ literal, writeConstantValue converter (value tokens) = some literal ∧
    swiftLiteral literal = some cs

/-- A string constant keeps its value if and only if it denotes a UTF-8 string, no white space other
    than blanks is in it, and each backslash that is written in octal or hexadecimal is followed by
    nothing that is taken together with it. -/
theorem keepsValue_iff (converter : Converter) {s rest : Text} {tokens : List Token}
    (hscan : scan s = .ok (tokens, rest)) (hstandard : ∀ token ∈ tokens, token.Standard) :
    KeepsValue converter tokens ↔ ValidUTF8 (denotes tokens) ∧
      plain (tokens.map Token.piece) = true := by
  have hspec := fun token hmem =>
    piece_spec (scanLoop_valid hscan token hmem) (hstandard token hmem)
  have hvalue : value tokens = stored (tokens.map Token.piece) := by
    rw [stored, flatMap_map]
    exact flatMap_congr fun token hmem => (hspec token hmem).1.symm
  have hmeaning : denotes tokens = meaning (tokens.map Token.piece) := by
    rw [meaning, flatMap_map]
    exact flatMap_congr fun token hmem => (hspec token hmem).2.1.symm
  have hvalid : ∀ p ∈ tokens.map Token.piece, p.Valid := by
    intro p hp
    obtain ⟨token, hmem, rfl⟩ := mem_map.mp hp
    exact (hspec token hmem).2.2
  rw [← reads_iff_plain hvalid, ← hvalue, ← hmeaning]
  constructor
  · rintro ⟨cs, hcs, hliteral⟩
    rw [writeConstantValue_iff, hcs] at hliteral
    exact ⟨⟨cs, hcs.symm⟩, hliteral⟩
  · rintro ⟨⟨cs, hcs⟩, hreads⟩
    rw [hcs] at hreads
    exact ⟨cs, hcs.symm, (writeConstantValue_iff _ cs).mpr hreads⟩

/-- `\x5c \u00e9` and a character of two bytes: the backslash, which is followed by a blank, is
    kept. -/
theorem keepsValue_blank :
    scan ['\\', 'x', '5', 'c', ' ', '\\', 'u', '0', '0', 'e', '9', Char.ofNat 0xC3,
      Char.ofNat 0xA9, '"'] =
      .ok ([.hexadecimal ['5', 'c'], .text ' ', .universal 'u' ['0', '0', 'e', '9'],
        .text (Char.ofNat 0xC3), .text (Char.ofNat 0xA9)], []) ∧
    KeepsValue utf8Converter [.hexadecimal ['5', 'c'], .text ' ',
      .universal 'u' ['0', '0', 'e', '9'], .text (Char.ofNat 0xC3), .text (Char.ofNat 0xA9)] := by
  refine ⟨rfl,
    (keepsValue_iff utf8Converter (s := ['\\', 'x', '5', 'c', ' ', '\\', 'u', '0', '0', 'e', '9',
    Char.ofNat 0xC3, Char.ofNat 0xA9, '"']) rfl (by decide)).mpr ⟨?_, rfl⟩⟩
  exact ⟨['\\', ' ', Char.ofNat 0xE9, Char.ofNat 0xE9], rfl⟩

/-- `\x5cu0041` denotes a backslash and `u0041` but becomes `A`; an assertion fails for `\x5cu`; the
    tab is dropped from `a`, tab, `b`. -/
theorem value_changed :
    (∃ tokens, scan ['\\', 'x', '5', 'c', 'u', '0', '0', '4', '1', '"'] = .ok (tokens, []) ∧
      (∀ token ∈ tokens, token.Standard) ∧ denotes tokens = ['\\', 'u', '0', '0', '4', '1'] ∧
        writeConstantValue utf8Converter (value tokens) = some ['"', 'A', '"']) ∧
    (∃ tokens, scan ['\\', 'x', '5', 'c', 'u', '"'] = .ok (tokens, []) ∧
      (∀ token ∈ tokens, token.Standard) ∧
      denotes tokens = ['\\', 'u'] ∧ writeConstantValue utf8Converter (value tokens) = none) ∧
    ∃ tokens, scan ['a', '\t', 'b', '"'] = .ok (tokens, []) ∧ (∀ token ∈ tokens, token.Standard) ∧
      denotes tokens = ['a', '\t', 'b'] ∧ writeConstantValue utf8Converter (value tokens) =
      some ['"', 'a', 'b', '"'] :=
  ⟨⟨_, rfl, by decide, rfl, rfl⟩, ⟨_, rfl, by decide, rfl, rfl⟩, ⟨_, rfl, by decide, rfl, rfl⟩⟩

end Ice.Slice
