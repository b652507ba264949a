import Mathlib

/-!
# Substitution of variables in IceGrid descriptors

`Resolver::substitute` (`cpp/src/IceGrid/DescriptorHelper.cpp:822-941`) replaces the references
`${name}` of a string by the values of the variables, and treats dollars before a reference as
escapes. The string is rewritten in place while a position moves through it.
-/

namespace Ice.IceGrid

open List

abbrev Text := List Char

scoped instance : LawfulBEq Text := inferInstance

/-- A `std::map` of strings. -/
abbrev Values := AList fun _ : Text => Text

/-- `Resolver`, as far as substitution uses it. -/
structure Resolver where
  /-- whether escapes are removed -/
  escape : Bool
  /-- `_variables` -/
  vars : Values
  parameters : Values
  reserved : Values
  /-- the variables that a later resolver substitutes -/
  ignore : List Text

/-- What the exceptions of `substitute` say. -/
inductive InvalidArgument where
  /-- `malformed variable name` -/
  | malformed (value : Text)
  /-- `use of the variable is not allowed here` -/
  | notAllowed (name : Text)
  /-- `detected circular dependency in variable` -/
  | circular (name : Text)
  /-- `undefined variable` -/
  | undefined (name : Text)
deriving DecidableEq, Repr

def dollars (n : Nat) : Text := List.replicate n '$'

/-- The position of the first `${` of a string. -/
def findReference : Text → Option Nat
  | [] => none
  | c :: rest =>
    if c = '$' ∧ rest.head? = some '{' then some 0 else (findReference rest).map (· + 1)

/-- `value.find("${", beg)`. -/
def find (value : Text) (beg : Nat) : Option Nat :=
  (findReference (value.drop beg)).map (beg + ·)

/-- `value.find('}', beg)`. -/
def findBrace (value : Text) (beg : Nat) : Option Nat :=
  if '}' ∈ value.drop beg then some (beg + ((value.drop beg).takeWhile (· ≠ '}')).length) else none

/-- The number of dollars at the end of a string. -/
def trailing (s : Text) : Nat := (s.reverse.takeWhile (· = '$')).length

/-- `value.replace(pos, len, text)`. -/
def replace (value : Text) (pos len : Nat) (text : Text) : Text :=
  value.take pos ++ text ++ value.drop (pos + len)

namespace Resolver

variable (r : Resolver)

/-- `Resolver::getVariable`: the value, and whether it is the value of a parameter. -/
def getVariable (name : Text) (checkParams : Bool) :
    Except InvalidArgument (Text × Bool) :=
  match r.reserved.lookup name with
  | some value => if value.isEmpty then .error (.undefined name) else .ok (value, false)
  | none =>
    match if checkParams then r.parameters.lookup name else none with
    | some value => .ok (value, true)
    | none =>
      match r.vars.lookup name with
      | some value => .ok (value, false)
      | none => .error (.undefined name)

/-- The value that a reference is replaced by, where `recurse` substitutes the value of a variable
    that is not a parameter. -/
def resolveWith (useParams : Bool)
    (recurse : Text → Text → Except InvalidArgument Text) (name : Text) :
    Except InvalidArgument Text := do
  let (val, param) ← r.getVariable name useParams
  if param then return val else recurse name val

/-- The loop of `substitute`. The fuel bounds the number of references. -/
def substituteLoop (r : Resolver) (useParams useIgnored : Bool)
    (recurse : Text → Text → Except InvalidArgument Text) :
    Nat → Text → Nat → Except InvalidArgument Text
  | 0, value, _ => .ok value
  | fuel + 1, value, beg =>
    match find value beg with
    | none => .ok value
    | some beg =>
      -- the dollars before the reference; if there are none, nothing is replaced
      let n := trailing (value.take beg)
      if n % 2 = 1 then
        -- the position is not moved with the text that is removed before it
        substituteLoop r useParams useIgnored recurse fuel
          (if r.escape then replace value (beg - n) n (dollars (n / 2)) else value) (beg + 1)
      else
        let value := replace value (beg - n) n (dollars (n / 2))
        let beg := beg - n / 2
        match findBrace value beg with
        | none => .error (.malformed value)
        | some stop =>
          let name := (value.drop (beg + 2)).take (stop - beg - 2)
          if name ∈ r.ignore then
            if useIgnored then substituteLoop r useParams useIgnored recurse fuel value (beg + 1)
            else .error (.notAllowed name)
          else do
            let val ← r.resolveWith useParams recurse name
            substituteLoop r useParams useIgnored recurse fuel
              (replace value beg (stop - beg + 1) val) (beg + val.length)

/-- `substitute` with the variables that are in progress. The depth bounds the number of variables
    that can still be started: at 0 all are in progress. -/
def substituteAt (r : Resolver) (useIgnored : Bool) :
    Nat → Bool → List Text → Text → Except InvalidArgument Text
  | 0, useParams, _, v =>
    substituteLoop r useParams useIgnored (fun name _ => .error (.circular name)) (v.length + 1) v 0
  | depth + 1, useParams, inProgress, v =>
    substituteLoop r useParams useIgnored
      (fun name val =>
        if name ∈ inProgress then .error (.circular name)
        else substituteAt r useIgnored depth false (name :: inProgress) val)
      (v.length + 1) v 0

/-- The number of variables whose values are substituted recursively. -/
def depth : Nat := r.reserved.keys.length + r.vars.keys.length

def substitute (v : Text) (useParams useIgnored : Bool) :
    Except InvalidArgument Text :=
  substituteAt r useIgnored r.depth useParams [] v

/-- `Resolver::operator()` for a string that may be empty. -/
def apply (v : Text) : Except InvalidArgument Text := r.substitute v true true

/-- The value that `apply` replaces a reference by. -/
def recurseAt (name val : Text) : Except InvalidArgument Text :=
  match r.depth with
  | 0 => .error (.circular name)
  | depth + 1 => substituteAt r true depth false [name] val

/-- The value of a variable, recursively substituted. -/
def resolve (name : Text) : Option Text :=
  (r.resolveWith true r.recurseAt name).toOption

theorem apply_eq (v : Text) :
    r.apply v = substituteLoop r true true r.recurseAt (v.length + 1) v 0 := by
  unfold apply substitute recurseAt
  cases r.depth with
  | zero => rfl
  | succ depth => simp [substituteAt]

end Resolver

/-! ## Lists of dollars -/

@[simp] theorem length_dollars (n : Nat) : (dollars n).length = n := length_replicate

theorem dollars_add (m n : Nat) : dollars (m + n) = dollars m ++ dollars n :=
  replicate_add m n '$'

theorem dollars_succ (n : Nat) : dollars (n + 1) = '$' :: dollars n := replicate_succ

@[simp] theorem dollars_zero : dollars 0 = [] := rfl

/-- Dollars and the next character are known from a string. -/
theorem dollars_cons_inj {m n : Nat} {c d : Char} {s t : Text} (hc : c ≠ '$') (hd : d ≠ '$')
    (h : dollars m ++ c :: s = dollars n ++ d :: t) : m = n ∧ c = d ∧ s = t := by
  induction m generalizing n with
  | zero =>
    cases n with
    | zero => exact ⟨rfl, (cons.inj h).1, (cons.inj h).2⟩
    | succ n => exact absurd (cons.inj h).1 hc
  | succ m ih =>
    cases n with
    | zero => exact absurd (cons.inj h).1.symm hd
    | succ n =>
      obtain ⟨hmn, hrest⟩ := ih (cons.inj h).2
      exact ⟨congrArg (· + 1) hmn, hrest⟩

variable (s : Text)

theorem trailing_concat (c : Char) :
    trailing (s ++ [c]) = if c = '$' then trailing s + 1 else 0 := by
  by_cases hc : c = '$' <;> simp [trailing, hc]

theorem trailing_append_dollars (n : Nat) : trailing (s ++ dollars n) = trailing s + n := by
  induction n with
  | zero => simp
  | succ n ih =>
    rw [dollars_add, ← append_assoc, show dollars 1 = ['$'] from rfl, trailing_concat, ih]
    simp [Nat.add_assoc]

theorem trailing_le : trailing s ≤ s.length := by
  have hsub := (takeWhile_sublist (fun c => decide (c = '$')) (l := s.reverse)).length_le
  simpa [trailing] using hsub

/-- A string is what stands before its last dollars, and these. -/
theorem take_append_dollars : s.take (s.length - trailing s) ++ dollars (trailing s) = s := by
  induction s using reverseRecOn with
  | nil => rfl
  | append_singleton s c ih =>
    rw [trailing_concat]
    by_cases hc : c = '$'
    · have hle := trailing_le s
      rw [if_pos hc, hc, dollars_add, ← append_assoc]
      have hlength : (s ++ ['$']).length - (trailing s + 1) = s.length - trailing s := by
        simp
      rw [hlength, take_append_of_le_length (by omega), ih]
      rfl
    · rw [if_neg hc, dollars_zero, append_nil, Nat.sub_zero, take_length]

/-- The part before the last dollars does not end in a dollar. -/
theorem trailing_take : trailing (s.take (s.length - trailing s)) = 0 := by
  have h := trailing_append_dollars (s.take (s.length - trailing s)) (trailing s)
  rw [take_append_dollars] at h
  omega

/-- Only the second part counts after a string that does not end in a dollar. -/
theorem trailing_append {s : Text} (hs : trailing s = 0) (t : Text) :
    trailing (s ++ t) = trailing t := by
  induction t using reverseRecOn with
  | nil =>
    rw [append_nil, hs]
    rfl
  | append_singleton t c ih => rw [← append_assoc, trailing_concat, trailing_concat, ih]

/-! ## Finding references -/

theorem findReference_eq_none_iff :
    findReference s = none ↔ ∀ before after, s ≠ before ++ '$' :: '{' :: after := by
  induction s with
  | nil => simp [findReference]
  | cons c rest ih =>
    rw [findReference]
    by_cases h : c = '$' ∧ rest.head? = some '{'
    · rw [if_pos h]
      obtain ⟨rfl, hrest⟩ := h
      cases rest with
      | nil => simp at hrest
      | cons d rest =>
        obtain rfl : d = '{' := by simpa using hrest
        simp only [reduceCtorEq, false_iff, not_forall, not_not]
        exact ⟨[], rest, rfl⟩
    · rw [if_neg h, Option.map_eq_none_iff, ih]
      constructor
      · rintro hrest (_ | ⟨d, before⟩) after heq
        · obtain ⟨rfl, rfl⟩ := cons.inj heq
          simp at h
        · exact hrest before after (cons.inj heq).2
      · rintro hs before after rfl
        exact hs (c :: before) after rfl

/-- The reference that is completed by a brace is the first. -/
theorem findReference_append {s : Text} (hs : findReference (s ++ ['$']) = none) (rest : Text) :
    findReference (s ++ '$' :: '{' :: rest) = some s.length := by
  induction s with
  | nil => rfl
  | cons c s ih =>
    rw [cons_append, findReference] at hs ⊢
    have hhead : (s ++ '$' :: '{' :: rest).head? = (s ++ ['$']).head? := by
      cases s <;> rfl
    rw [hhead]
    by_cases h : c = '$' ∧ (s ++ ['$']).head? = some '{'
    · rw [if_pos h] at hs
      cases hs
    · rw [if_neg h, Option.map_eq_none_iff] at hs
      rw [if_neg h, ih hs]
      rfl

/-- A character that completes no reference. -/
theorem findReference_concat {s : Text} (hs : findReference s = none) {c : Char}
    (hc : c = '{' → trailing s = 0) : findReference (s ++ [c]) = none := by
  rw [findReference_eq_none_iff] at hs ⊢
  intro before after h
  rcases eq_nil_or_concat after with rfl | ⟨after, d, rfl⟩
  · have heq : s ++ [c] = (before ++ ['$']) ++ ['{'] := by simpa using h
    obtain ⟨rfl, hchar⟩ := append_inj' heq rfl
    have := hc (by simpa using hchar)
    simp [trailing_concat] at this
  · have heq : s ++ [c] = (before ++ '$' :: '{' :: after) ++ [d] := by simpa using h
    exact hs before after (append_inj' heq rfl).1

theorem findReference_of_length_le_one {s : Text} (hs : s.length ≤ 1) : findReference s = none := by
  match s, hs with
  | [], _ => rfl
  | [c], _ => simp [findReference]

end Ice.IceGrid
