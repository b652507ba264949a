import Mathlib

/-!
# Extraction of numbers from a stream

`istr >> value` for an `int`, on the text that is left in the stream, and what it reads: a decimal
number with all its digits.
-/

namespace Ice.Misc

/-- `isspace`. -/
def isSpace (c : Char) : Bool := c ∈ [' ', '\t', '\n', '\x0b', '\x0c', '\r']

/-- The value of decimal digits. -/
def decimal (digits : List Char) : Nat := digits.foldl (fun n c => 10 * n + (c.toNat - 48)) 0

/-- The sign that `istr >> value` accepts before the digits. -/
def readSign : List Char → Bool × List Char
  | '-' :: s => (true, s)
  | '+' :: s => (false, s)
  | s => (false, s)

/-- The value with its sign. -/
def signed (negative : Bool) (n : Nat) : Int := if negative then -n else n

/-- The digits of a number. The extraction fails without digits, and when the value does not fit. -/
def readDigits (negative : Bool) (istr : List Char) : Option (Int × List Char) :=
  let digits := istr.takeWhile Char.isDigit
  let value := signed negative (decimal digits)
  if digits = [] ∨ value < -2 ^ 31 ∨ 2 ^ 31 ≤ value then none
  else some (value, istr.dropWhile Char.isDigit)

/-- `istr >> value` for an `int`: the value and what is left in the stream. -/
def readInt (istr : List Char) : Option (Int × List Char) :=
  let (negative, istr) := readSign (istr.dropWhile isSpace)
  readDigits negative istr

/-! ## Numerals -/

def StartsWithDigit (s : List Char) : Prop := ∃ c ∈ s.head?, c.isDigit = true

/-- A non-empty text of decimal digits. -/
def Digits (s : List Char) : Prop := s ≠ [] ∧ ∀ c ∈ s, c.isDigit = true

/-- A decimal number, with or without a sign. -/
inductive Numeral : List Char → Int → Prop
  | plain {digits : List Char} (h : Digits digits) : Numeral digits (decimal digits)
  | plus {digits : List Char} (h : Digits digits) : Numeral ('+' :: digits) (decimal digits)
  | minus {digits : List Char} (h : Digits digits) : Numeral ('-' :: digits) (-decimal digits)

/-! ## What is read -/

@[simp] theorem not_startsWithDigit_nil : ¬ StartsWithDigit [] := by
  simp [StartsWithDigit]

@[simp] theorem startsWithDigit_cons (c : Char) (s : List Char) :
    StartsWithDigit (c :: s) ↔ c.isDigit = true := by
  simp [StartsWithDigit]

variable {s : List Char}

theorem Digits.startsWithDigit (h : Digits s) (t : List Char) : StartsWithDigit (s ++ t) := by
  obtain ⟨hne, hdigits⟩ := h
  cases s with
  | nil => exact absurd rfl hne
  | cons c s => simpa using hdigits c List.mem_cons_self

theorem Digits.takeWhile {t : List Char} (hs : Digits s) (ht : ¬ StartsWithDigit t) :
    (s ++ t).takeWhile Char.isDigit = s ∧ (s ++ t).dropWhile Char.isDigit = t := by
  rw [List.takeWhile_append_of_pos hs.2, List.dropWhile_append_of_pos hs.2]
  cases t with
  | nil => simp
  | cons c t =>
    rw [startsWithDigit_cons] at ht
    simp [ht]

theorem not_startsWithDigit_dropWhile (s : List Char) :
    ¬ StartsWithDigit (s.dropWhile Char.isDigit) := by
  have h := List.head?_dropWhile_not Char.isDigit s
  rintro ⟨c, hc, hdigit⟩
  rw [Option.mem_def.mp hc] at h
  simp [hdigit] at h

theorem digits_takeWhile (h : s.takeWhile Char.isDigit ≠ []) : Digits (s.takeWhile Char.isDigit) :=
  ⟨h, List.all_eq_true.mp List.all_takeWhile⟩

theorem dropWhile_isSpace (h : ∀ c ∈ s, isSpace c = false) : s.dropWhile isSpace = s := by
  cases s with
  | nil => rfl
  | cons c s => simp [h c List.mem_cons_self]

/-- What stands before a number that is read. -/
theorem readSign_eq (s : List Char) :
    (∃ t, s = '-' :: t ∧ readSign s = (true, t)) ∨ (∃ t, s = '+' :: t ∧ readSign s = (false, t)) ∨
      readSign s = (false, s) := by
  unfold readSign
  split
  · exact .inl ⟨_, rfl, rfl⟩
  · exact .inr (.inl ⟨_, rfl, rfl⟩)
  · exact .inr (.inr rfl)

theorem readSign_digits (h : Digits s) (t : List Char) : readSign (s ++ t) = (false, s ++ t) := by
  obtain ⟨c, hc, hdigit⟩ := h.startsWithDigit t
  rcases readSign_eq (s ++ t) with ⟨u, hu, -⟩ | ⟨u, hu, -⟩ | hsign
  · rw [hu] at hc
    obtain rfl : '-' = c := by simpa using hc
    exact absurd hdigit (by decide)
  · rw [hu] at hc
    obtain rfl : '+' = c := by simpa using hc
    exact absurd hdigit (by decide)
  · exact hsign

/-- The values of an `int`. -/
def FitsInt (v : Int) : Prop := -2 ^ 31 ≤ v ∧ v < 2 ^ 31

theorem readDigits_eq_some_iff {negative : Bool} {rest : List Char} {v : Int} :
    readDigits negative s = some (v, rest) ↔
      ∃ digits, s = digits ++ rest ∧ Digits digits ∧ ¬ StartsWithDigit rest ∧
        v = signed negative (decimal digits) ∧ FitsInt v := by
  unfold readDigits FitsInt
  constructor
  · intro h
    by_cases hfails : s.takeWhile Char.isDigit = [] ∨
        signed negative (decimal (s.takeWhile Char.isDigit)) < -2 ^ 31 ∨
        2 ^ 31 ≤ signed negative (decimal (s.takeWhile Char.isDigit))
    · simp only [if_pos hfails] at h
      cases h
    · simp only [if_neg hfails, Option.some.injEq, Prod.mk.injEq] at h
      obtain ⟨rfl, rfl⟩ := h
      obtain ⟨hne, hlower, hupper⟩ : _ ∧ _ ∧ _ := by simpa only [not_or] using hfails
      exact ⟨s.takeWhile Char.isDigit, List.takeWhile_append_dropWhile.symm, digits_takeWhile hne,
        not_startsWithDigit_dropWhile s, rfl, by omega, by omega⟩
  · rintro ⟨digits, rfl, hdigits, hrest, rfl, hlower, hupper⟩
    have hfits : ¬ (digits = [] ∨ signed negative (decimal digits) < -2 ^ 31 ∨
        2 ^ 31 ≤ signed negative (decimal digits)) := by
      rintro (h | h)
      · exact hdigits.1 h
      · omega
    rw [(hdigits.takeWhile hrest).1, (hdigits.takeWhile hrest).2]
    exact if_neg hfits

/-- An extraction takes a number that fits, with all its digits. -/
theorem readInt_eq_some_iff {rest : List Char} {v : Int} (hs : ∀ c ∈ s, isSpace c = false) :
    readInt s = some (v, rest) ↔
      ∃ number, s = number ++ rest ∧ Numeral number v ∧ ¬ StartsWithDigit rest ∧ FitsInt v := by
  rw [readInt, dropWhile_isSpace hs]
  constructor
  · intro h
    rcases readSign_eq s with ⟨t, rfl, hsign⟩ | ⟨t, rfl, hsign⟩ | hsign
    all_goals
      rw [hsign] at h
      obtain ⟨digits, rfl, hdigits, hrest, rfl, hrange⟩ := readDigits_eq_some_iff.mp h
    · exact ⟨'-' :: digits, rfl, .minus hdigits, hrest, hrange⟩
    · exact ⟨'+' :: digits, rfl, .plus hdigits, hrest, hrange⟩
    · exact ⟨digits, rfl, .plain hdigits, hrest, hrange⟩
  · rintro ⟨number, rfl, hnumber, hrest, hrange⟩
    cases hnumber with
    | plain hdigits =>
      rw [readSign_digits hdigits]
      exact readDigits_eq_some_iff.mpr ⟨_, rfl, hdigits, hrest, rfl, hrange⟩
    | plus hdigits | minus hdigits =>
      exact readDigits_eq_some_iff.mpr ⟨_, rfl, hdigits, hrest, rfl, hrange⟩

theorem Numeral.value_eq {v : Int} (h : Numeral s v) :
    v = signed (readSign s).1 (decimal (readSign s).2) := by
  cases h with
  | plain h =>
    have hsign := readSign_digits h []
    rw [List.append_nil] at hsign
    rw [hsign]
    rfl
  | plus h => rfl
  | minus h => rfl

/-- A number has a minus sign at its start only. -/
theorem Numeral.eq_cons {v : Int} (h : Numeral s v) : ∃ c t, s = c :: t ∧ '-' ∉ t := by
  have hdigits : ∀ digits, Digits digits → '-' ∉ digits :=
    fun digits hdigits hmem => absurd (hdigits.2 '-' hmem) (by decide)
  cases h with
  | plain h =>
    cases s with
    | nil => exact absurd rfl h.1
    | cons c t => exact ⟨c, t, rfl, List.not_mem_of_not_mem_cons (hdigits _ h)⟩
  | plus h | minus h => exact ⟨_, _, rfl, hdigits _ h⟩

theorem FitsInt.of_le {start stop v : Int} (hstart : FitsInt start) (hstop : FitsInt stop)
    (h : start ≤ v ∧ v ≤ stop) : FitsInt v := by
  unfold FitsInt at *
  omega

end Ice.Misc
