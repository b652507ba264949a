import Ice.IceGrid.Scanning

/-!
# Two stages of substitution

The registry substitutes the variables of a descriptor, except for those that only the node knows
(`cpp/src/IceGrid/DescriptorHelper.cpp:327-357`). The node then substitutes these and removes the
escapes (`cpp/src/IceGrid/DescriptorHelper.cpp:461-487`). Here is for which strings and values this
gives what a single pass is meant to give.
-/

namespace Ice.IceGrid

open List Option Resolver

/-! ## The single pass -/

/-- What a string is made of. -/
inductive Token where
  | char (c : Char)
  /-- a reference, after an even number of dollars -/
  | reference (n : Nat) (name : Text)
  /-- a `${` after an odd number of dollars; what follows it is read as text -/
  | escape (n : Nat)
  /-- a `${` after an even number of dollars, without a closing brace in the rest -/
  | malformed (n : Nat) (rest : Text)
deriving DecidableEq, Repr

def Token.text : Token → Text
  | char c => [c]
  | reference n name => dollars n ++ '$' :: '{' :: (name ++ ['}'])
  | escape n => dollars n ++ ['$', '{']
  | malformed n rest => dollars n ++ '$' :: '{' :: rest

def render (ts : List Token) : Text := ts.flatMap Token.text

@[simp] theorem render_nil : render [] = [] := rfl

@[simp] theorem render_cons (t : Token) (ts : List Token) :
    render (t :: ts) = t.text ++ render ts := flatMap_cons

/-- The tokens of a string that follows `run` dollars. -/
def tokensFrom : Nat → Nat → Text → List Token
  | 0, _, _ => []
  | _ + 1, run, [] => List.replicate run (.char '$')
  | fuel + 1, run, c :: rest =>
    if c = '$' then tokensFrom fuel (run + 1) rest
    else if c = '{' ∧ run ≠ 0 then
      if (run - 1) % 2 = 1 then .escape (run - 1) :: tokensFrom fuel 0 rest
      else
        match splitName rest with
        | some (name, after) => .reference (run - 1) name :: tokensFrom fuel 0 after
        | none => [.malformed (run - 1) rest]
    else List.replicate run (.char '$') ++ .char c :: tokensFrom fuel 0 rest

/-- The tokens of a string, from left to right. -/
def tokens (v : Text) : List Token := tokensFrom (v.length + 1) 0 v

/-- The single pass: `n` dollars before a reference give `n / 2` dollars, and then the value or,
    after an odd number of dollars, the reference itself. -/
def singlePass (value : Text → Option Text) : List Token → Option Text
  | [] => some []
  | .char c :: ts => (singlePass value ts).map (c :: ·)
  | .reference n name :: ts =>
    (value name).bind fun val => (singlePass value ts).map (dollars (n / 2) ++ val ++ ·)
  | .escape n :: ts => (singlePass value ts).map (dollars (n / 2) ++ '$' :: '{' :: ·)
  | .malformed _ _ :: _ => none

/-! ## The two stages -/

/-- The variables that the registry leaves to the node. -/
def nodeVariables : List Text :=
  ["node.os", "node.hostname", "node.release", "node.version", "node.machine", "node.datadir",
    "node.data", "node.ice.soversion"].map String.toList

/-- A resolver of the registry and one of a node. -/
structure Stages where
  registry : Resolver
  node : Resolver
  registry_escape : registry.escape = false
  registry_ignore : registry.ignore = nodeVariables
  node_escape : node.escape = true
  node_ignore : node.ignore = []

namespace Stages

/-- The substitution of the registry and then that of the node. -/
def twoStage (σ : Stages) (v : Text) : Except InvalidArgument Text := do
  let registered ← σ.registry.apply v
  σ.node.apply registered

/-- The value of a variable: the node knows its own variables, the registry the others. -/
def value (σ : Stages) (name : Text) : Option Text :=
  if name ∈ nodeVariables then σ.node.resolve name else σ.registry.resolve name

end Stages

/-- There are no dollars before a node variable, nor before a value that is empty or begins with a
    brace. The `${` of a node variable or of an escape is not among the next `e` characters, which
    the node's loop has moved past. -/
def Clear (σ : Stages) : Nat → List Token → Prop
  | _, [] => True
  | e, .char _ :: ts => Clear σ (e - 1) ts
  | e, .reference n name :: ts =>
    if name ∈ nodeVariables then n = 0 ∧ e ≤ 1 ∧ Clear σ 0 ts
    else
      let val := (σ.value name).getD []
      (n = 0 ∨ val ≠ [] ∧ val.head? ≠ some '{') ∧ Clear σ (e - (n / 2 + val.length)) ts
  | e, .escape n :: ts => e ≤ n + 1 ∧ Clear σ ((n + 1) / 2) ts
  | _, .malformed _ _ :: _ => True

instance Clear.decidable (σ : Stages) : (e : Nat) → (ts : List Token) → Decidable (Clear σ e ts)
  | _, [] => isTrue trivial
  | e, .char _ :: ts => Clear.decidable σ (e - 1) ts
  | e, .reference n name :: ts =>
    if h : name ∈ nodeVariables then
      have := Clear.decidable σ 0 ts
      decidable_of_iff (n = 0 ∧ e ≤ 1 ∧ Clear σ 0 ts) (by rw [Clear, if_pos h])
    else
      have := Clear.decidable σ (e - (n / 2 + ((σ.value name).getD []).length)) ts
      decidable_of_iff _ (by rw [Clear, if_neg h])
  | _, .escape n :: ts =>
    have := Clear.decidable σ ((n + 1) / 2) ts
    inferInstanceAs (Decidable (_ ∧ _))
  | _, .malformed _ _ :: _ => isTrue trivial

/-- The values of node variables, and those behind dollars, begin with a character that is no
    brace. -/
def Solid (σ : Stages) (ts : List Token) : Prop :=
  ∀ n name val, .reference n name ∈ ts → name ∈ nodeVariables ∨ n ≠ 0 → σ.value name = some val →
    val ≠ [] ∧ val.head? ≠ some '{'

/-! ## The tokens of a string -/

/-- The string starts with a brace, after any number of dollars. -/
def Opens (s : Text) : Prop := (s.dropWhile (· = '$')).head? = some '{'

theorem opens_dollar (s : Text) : Opens ('$' :: s) ↔ Opens s := by
  simp [Opens]

theorem opens_dollars (n : Nat) (s : Text) : Opens (dollars n ++ s) ↔ Opens s := by
  induction n with
  | zero => rfl
  | succ n ih => rw [dollars_succ, cons_append, opens_dollar, ih]

theorem opens_cons {c : Char} (hc : c ≠ '$') (s : Text) : Opens (c :: s) ↔ c = '{' := by
  simp [Opens, hc]

/-- Tokens that are those of their text. -/
def Canonical : List Token → Prop
  | [] => True
  | .char c :: ts => (c = '$' → ¬ Opens (render ts)) ∧ Canonical ts
  | .reference n name :: ts => n % 2 = 0 ∧ '}' ∉ name ∧ Canonical ts
  | .escape n :: ts => n % 2 = 1 ∧ Canonical ts
  | .malformed _ _ :: ts => ts = []

theorem dollars_open (n : Nat) (s : Text) : dollars n ++ '$' :: s = dollars (n + 1) ++ s := by
  rw [dollars_add, append_assoc]
  rfl

theorem render_replicate (n : Nat) : render (replicate n (.char '$')) = dollars n := by
  induction n with
  | zero => rfl
  | succ n ih => rw [replicate_succ, render_cons, ih, dollars_succ]; rfl

theorem render_append (ts us : List Token) : render (ts ++ us) = render ts ++ render us :=
  flatMap_append

variable {ts : List Token}

theorem canonical_dollars (hts : Canonical ts) (hopens : ¬ Opens (render ts)) (n : Nat) :
    Canonical (replicate n (.char '$') ++ ts) := by
  induction n with
  | zero => exact hts
  | succ n ih =>
    rw [replicate_succ, cons_append]
    refine ⟨fun _ => ?_, ih⟩
    rw [render_append, render_replicate, opens_dollars]
    exact hopens

theorem tokensFrom_spec {fuel : Nat} (run : Nat) {rest : Text} (hfuel : rest.length < fuel) :
    render (tokensFrom fuel run rest) = dollars run ++ rest ∧
      Canonical (tokensFrom fuel run rest) := by
  induction fuel generalizing run rest with
  | zero => omega
  | succ fuel ih =>
    match rest with
    | [] =>
      rw [tokensFrom, render_replicate, append_nil]
      refine ⟨rfl, ?_⟩
      have h : Canonical (replicate run (.char '$') ++ []) :=
        canonical_dollars (show Canonical [] from trivial) (by simp [Opens]) run
      rwa [append_nil] at h
    | c :: rest =>
      rw [length_cons] at hfuel
      obtain ⟨hrender, hcanonical⟩ := ih 0 (show rest.length < fuel by omega)
      rw [tokensFrom]
      split
      · next hc =>
        obtain ⟨hrender, hcanonical⟩ := ih (run + 1) (show rest.length < fuel by omega)
        refine ⟨?_, hcanonical⟩
        rw [hrender, hc, dollars_open]
      · next hdollar =>
        split
        · next href =>
          obtain ⟨n, rfl⟩ : ∃ n, run = n + 1 := ⟨run - 1, by omega⟩
          rw [href.1, Nat.add_sub_cancel]
          split
          · next hodd =>
            refine ⟨?_, hodd, hcanonical⟩
            rw [render_cons, hrender, ← dollars_open]
            simp [Token.text]
          · next hodd =>
            split
            · next name after hsplit =>
              obtain ⟨rfl, hname⟩ := splitName_eq_some.mp hsplit
              obtain ⟨hrender, hcanonical⟩ :=
                ih 0 (show after.length < fuel by simp at hfuel; omega)
              refine ⟨?_, by omega, hname, hcanonical⟩
              rw [render_cons, hrender, ← dollars_open]
              simp [Token.text]
            · refine ⟨?_, rfl⟩
              rw [render_cons, ← dollars_open]
              simp [Token.text]
        · next href =>
          have hopens : ∀ s : Text, run ≠ 0 → ¬ Opens (c :: s) := by
            intro s hrun
            rw [opens_cons hdollar]
            exact fun hc => href ⟨hc, hrun⟩
          have htail : Canonical (.char c :: tokensFrom fuel 0 rest) :=
            ⟨fun hc => absurd hc hdollar, hcanonical⟩
          constructor
          · rw [render_append, render_replicate, render_cons, hrender]
            simp [Token.text]
          · by_cases hrun : run = 0
            · rw [hrun]
              exact htail
            · exact canonical_dollars htail (by rw [render_cons]; exact hopens _ hrun) run

theorem canonical_tokens (v : Text) : Canonical (tokens v) :=
  (tokensFrom_spec 0 (Nat.lt_succ_self v.length)).2

variable {s : Text}

/-! ## Scanning tokens -/

section scan

variable (r : Scanner)

theorem scan_dollars (run e n : Nat) (s : Text) :
    scan r run e (dollars n ++ s) = scan r (run + n) (e - n) s := by
  induction n generalizing run e with
  | zero => rfl
  | succ n ih =>
    rw [dollars_succ, cons_append, scan_dollar, ih]
    congr 1 <;> omega

/-- Dollars that no brace follows are read as they are. -/
theorem scan_flush (hs : ¬ Opens s) (run e : Nat) :
    scan r run e s = (scan r 0 e s).map (dollars run ++ ·) := by
  induction s generalizing run e with
  | nil => simp [scan_nil]
  | cons c s ih =>
    by_cases hc : c = '$'
    · subst hc
      rw [scan_dollar, scan_dollar, ih hs (run + 1), ih hs (0 + 1), dollars_add]
      simp [Function.comp_def, dollars]
    · have hbrace : c ≠ '{' := by rwa [opens_cons hc] at hs
      rw [scan_char r hc run e s fun h => absurd h hbrace, scan_char r hc 0 e s fun h =>
        absurd h hbrace]
      simp [Function.comp_def]

/-- Text without dollars is read as it is. -/
theorem scan_text (hs : '$' ∉ s) (e : Nat) (rest : Text) :
    scan r 0 e (s ++ rest) = (scan r 0 (e - s.length) rest).map (s ++ ·) := by
  induction s generalizing e with
  | nil => simp
  | cons c s ih =>
    rw [mem_cons, not_or] at hs
    rw [cons_append, scan_char r (Ne.symm hs.1) 0 e _ fun _ => Or.inl rfl, ih hs.2]
    simp [Function.comp_def, Nat.sub_sub, Nat.add_comm 1]

theorem scan_token_char {c : Char} (h : c = '$' → ¬ Opens s) (e : Nat) :
    scan r 0 e (c :: s) = (scan r 0 (e - 1) s).map (c :: ·) := by
  by_cases hc : c = '$'
  · rw [hc, scan_dollar, scan_flush r (h hc)]
    rfl
  · rw [scan_char r hc 0 e s fun _ => Or.inl rfl]
    rfl

/-- A `${` with the dollars before it, when the brace completes a reference. -/
theorem scan_open {n e : Nat} (he : e ≤ n + 1) (s : Text) :
    scan r 0 e (dollars n ++ '$' :: '{' :: s) = scan r (n + 1) 0 ('{' :: s) := by
  rw [scan_dollars, scan_dollar, Nat.zero_add, show e - n - 1 = 0 by omega]

/-- A `${` that the loop has moved past. -/
theorem scan_passed {n e : Nat} (he : n + 1 < e) (s : Text) :
    scan r 0 e (dollars n ++ '$' :: '{' :: s) =
      (scan r 0 (e - (n + 2)) s).map (dollars (n + 1) ++ '{' :: ·) := by
  rw [scan_dollars, scan_dollar, Nat.zero_add, scan_char r (by decide) _ _ _ fun _ =>
    Or.inr (by omega)]
  rfl

variable {n : Nat}

/-- A reference that is replaced. The value has no dollars, and is not empty if dollars are left. -/
theorem scan_value (hn : n % 2 = 0) {name val : Text} (hname : '}' ∉ name)
    (hignored : r.ignored name = false) (hval : r.value name = some val) (hdollar : '$' ∉ val)
    (hempty : n = 0 ∨ val ≠ []) (rest : Text) : scan r (n + 1) 0 ('{' :: (name ++ '}' :: rest)) =
      (scan r 0 0 rest).map (dollars (n / 2) ++ val ++ ·) := by
  have htrailing : trailing (dollars (n / 2) ++ val) = 0 := by
    rcases eq_nil_or_concat val with rfl | ⟨init, c, rfl⟩
    · obtain rfl : n = 0 := hempty.resolve_right (by simp)
      rfl
    · have hc : c ≠ '$' := by
        rintro rfl
        simp at hdollar
      rw [concat_eq_append, ← append_assoc, trailing_concat, if_neg hc]
  rw [scan_reference r hn (splitName_eq_some.mpr ⟨rfl, hname⟩), hignored, hval]
  simp only [Bool.false_eq_true, if_false, htrailing, Nat.sub_zero, take_length]
  rw [scan_zero_one]

end scan

variable {name : Text}

theorem nodeVariables_plain (h : name ∈ nodeVariables) : '$' ∉ name := by
  have hall : ∀ name ∈ nodeVariables, '$' ∉ name := by decide
  exact hall name h

namespace Stages

variable (σ : Stages)

theorem twoStage_eq_ok (v s : Text) : σ.twoStage v = .ok s ↔
      ((scan σ.registry.scanner 0 0 v).bind (scan σ.node.scanner 0 0)) = some s := by
  have htoOption : ∀ x : Except InvalidArgument Text, x = .ok s ↔ x.toOption = some s := by
    intro x
    cases x <;> simp [Except.toOption]
  rw [htoOption, ← σ.registry.apply_eq_scan, twoStage]
  cases σ.registry.apply v with
  | error e => rfl
  | ok registered => exact Eq.congr_left (σ.node.apply_eq_scan registered)

/-- The registry's part, on tokens. -/
def first (ts : List Token) : Option Text := scan σ.registry.scanner 0 0 (render ts)

/-- The node's part, where the loop has moved past the dollar of a brace in the next `e`
    characters. -/
def second (e : Nat) (s : Text) : Option Text := scan σ.node.scanner 0 e s

variable {σ} {ts : List Token}

theorem first_char {c : Char} (h : c = '$' → ¬ Opens (render ts)) :
    σ.first (.char c :: ts) = (σ.first ts).map (c :: ·) :=
  scan_token_char _ h 0

theorem first_escape (hn : n % 2 = 1) :
    σ.first (.escape n :: ts) = (σ.first ts).map (dollars n ++ '$' :: '{' :: ·) := by
  rw [first, render_cons]
  simp only [Token.text, append_assoc, cons_append, nil_append]
  rw [scan_open _ (Nat.zero_le _), scan_escaped _ hn]
  simp [scanner, σ.registry_escape, first]

/-- A reference to a node variable loses half of its dollars, and is kept. -/
theorem first_node (hn : n % 2 = 0) {name : Text} (hname : '}' ∉ name)
    (hnode : name ∈ nodeVariables) : σ.first (.reference n name :: ts) =
      (σ.first ts).map fun s => dollars (n / 2) ++ '$' :: '{' :: (name ++ '}' :: s) := by
  have hplain : '$' ∉ name ++ ['}'] := by simp [nodeVariables_plain hnode]
  have htext := scan_text σ.registry.scanner hplain 0 (render ts)
  rw [append_assoc, singleton_append, Nat.zero_sub] at htext
  rw [first, render_cons]
  simp only [Token.text, append_assoc, cons_append, nil_append]
  rw [scan_open _ (Nat.zero_le _), scan_reference _ hn (splitName_eq_some.mpr ⟨rfl, hname⟩),
    if_pos (by simp [scanner, σ.registry_ignore, hnode]), htext]
  simp [first, Function.comp_def]

theorem first_value (hn : n % 2 = 0) {name val : Text} (hname : '}' ∉ name)
    (hnode : name ∉ nodeVariables) (hval : σ.value name = some val) (hdollar : '$' ∉ val)
    (hempty : n = 0 ∨ val ≠ []) :
    σ.first (.reference n name :: ts) = (σ.first ts).map (dollars (n / 2) ++ val ++ ·) := by
  rw [value, if_neg hnode] at hval
  rw [first, render_cons]
  simp only [Token.text, append_assoc, cons_append, nil_append]
  rw [scan_open _ (Nat.zero_le _),
    scan_value _ hn hname (by simp [scanner, σ.registry_ignore, hnode]) hval hdollar hempty]
  simp [first]

/-- What the registry makes of tokens opens no reference if the tokens do not. -/
theorem not_opens_first (hts : Canonical ts) (hopens : ¬ Opens (render ts))
    (hs : σ.first ts = some s) : ¬ Opens s := by
  induction ts generalizing s with
  | nil =>
    obtain rfl : [] = s := by simpa [first, scan_nil] using hs
    exact hopens
  | cons t ts ih =>
    cases t with
    | char c =>
      rw [first_char hts.1, map_eq_some_iff] at hs
      obtain ⟨s, hs, rfl⟩ := hs
      by_cases hc : c = '$'
      · subst hc
        rw [opens_dollar]
        exact ih hts.2 (hts.1 rfl) hs
      · rw [opens_cons hc]
        exact fun h => hopens ((opens_cons hc _).mpr h)
    | reference | escape | malformed =>
      exact absurd (by simp [Token.text, opens_dollars, opens_dollar, opens_cons]) hopens

theorem second_escape {n e : Nat} (hn : n % 2 = 1) (he : e ≤ n + 1) (s : Text) :
    σ.second e (dollars n ++ '$' :: '{' :: s) =
      (σ.second ((n + 1) / 2) s).map (dollars (n / 2) ++ '$' :: '{' :: ·) := by
  rw [second, scan_open _ he, scan_escaped _ hn]
  simp [scanner, σ.node_escape, second]

theorem second_value {n e : Nat} (hn : n % 2 = 0) (he : e ≤ n + 1) {name val : Text}
    (hname : '}' ∉ name) (hval : σ.node.resolve name = some val) (hdollar : '$' ∉ val)
    (hempty : n = 0 ∨ val ≠ []) (s : Text) :
    σ.second e (dollars n ++ '$' :: '{' :: (name ++ '}' :: s)) =
      (σ.second 0 s).map (dollars (n / 2) ++ val ++ ·) := by
  rw [second, scan_open _ he, scan_value _ hn hname
    (by simp [scanner, σ.node_ignore]) hval hdollar hempty]
  rfl

/-- The string that the registry makes of tokens, character by character. -/
theorem second_char {c : Char} (hts : Canonical (.char c :: ts))
    (hs : σ.first ts = some s) (e : Nat) :
    σ.second e (c :: s) = (σ.second (e - 1) s).map (c :: ·) :=
  scan_token_char _ (fun hc => not_opens_first hts.2 (hts.1 hc) hs) e

end Stages

/-! ## Clear strings -/

open Stages

/-- Text of the registry that the node reads as it is. -/
theorem second_text {σ : Stages} {val : Text} (hdollar : '$' ∉ val)
    (hval : n = 0 ∨ val ≠ [] ∧ val.head? ≠ some '{') (e : Nat) (w : Text) :
    σ.second e (dollars (n / 2) ++ val ++ w) =
      (σ.second (e - (n / 2 + val.length)) w).map (dollars (n / 2) ++ val ++ ·) := by
  rcases hval with rfl | ⟨hne, hbrace⟩
  · simpa [second] using scan_text σ.node.scanner hdollar e w
  · obtain ⟨c, val, rfl⟩ := exists_cons_of_ne_nil hne
    rw [mem_cons, not_or] at hdollar
    have hchar : c ≠ '{' := by simpa using hbrace
    rw [second, append_assoc, scan_dollars, cons_append,
      scan_char _ (Ne.symm hdollar.1) _ _ _ fun h => absurd h hchar, scan_text _ hdollar.2]
    simp [second, Function.comp_def, Nat.sub_sub, Nat.add_assoc, Nat.add_comm 1]

section

variable {σ : Stages} {e : Nat}

theorem singlePass_reference {value : Text → Option Text} :
    singlePass value (.reference n name :: ts) = some s ↔
      ∃ val s', value name = some val ∧ singlePass value ts = some s' ∧
        dollars (n / 2) ++ val ++ s' = s := by
  simp [singlePass, bind_eq_some_iff]

theorem resolve_of_value {val : Text} (hnode : name ∈ nodeVariables) (h : σ.value name = some val) :
    σ.node.resolve name = some val := by
  rwa [value, if_pos hnode] at h

/-- Clear tokens are substituted as in the single pass. -/
theorem second_of_clear (hts : Canonical ts)
    (hplain : ∀ n name val, .reference n name ∈ ts → σ.value name = some val → '$' ∉ val)
    (hs : singlePass σ.value ts = some s) (hclear : Clear σ e ts) :
    (σ.first ts).bind (σ.second e) = some s := by
  induction ts generalizing s e with
  | nil =>
    cases hs
    simp [first, second, scan_nil]
  | cons t ts ih =>
    have hrest : ∀ n name val, .reference n name ∈ ts → σ.value name = some val → '$' ∉ val :=
      fun n name val hmem => hplain n name val (mem_cons_of_mem _ hmem)
    cases t with
    | char c =>
      rw [singlePass, map_eq_some_iff] at hs
      obtain ⟨s, hs, rfl⟩ := hs
      obtain ⟨w, hw, hsecond⟩ := bind_eq_some_iff.mp (ih hts.2 hrest hs hclear)
      rw [first_char hts.1, hw, map_some, bind_some, second_char hts hw, hsecond, map_some]
    | reference n name =>
      obtain ⟨hn, hname, hts⟩ := hts
      rw [singlePass_reference] at hs
      obtain ⟨val, s, hval, hs, rfl⟩ := hs
      have hdollar := hplain n name val mem_cons_self hval
      unfold Clear at hclear
      by_cases hnode : name ∈ nodeVariables
      · rw [if_pos hnode] at hclear
        obtain ⟨rfl, he, hclear⟩ := hclear
        obtain ⟨w, hw, hsecond⟩ := bind_eq_some_iff.mp (ih hts hrest hs hclear)
        have hresolve := resolve_of_value hnode hval
        rw [first_node hn hname hnode, hw, map_some, bind_some,
          second_value hn he hname hresolve hdollar (Or.inl rfl), hsecond, map_some]
      · rw [if_neg hnode, hval, getD_some] at hclear
        obtain ⟨hgood, hclear⟩ := hclear
        obtain ⟨w, hw, hsecond⟩ := bind_eq_some_iff.mp (ih hts hrest hs hclear)
        rw [first_value hn hname hnode hval hdollar (hgood.imp_right And.left), hw, map_some,
          bind_some, second_text hdollar hgood, hsecond, map_some]
    | escape n =>
      obtain ⟨hn, hts⟩ := hts
      rw [singlePass, map_eq_some_iff] at hs
      obtain ⟨s, hs, rfl⟩ := hs
      obtain ⟨w, hw, hsecond⟩ := bind_eq_some_iff.mp (ih hts hrest hs hclear.2)
      rw [first_escape hn, hw, map_some, bind_some, second_escape hn hclear.1, hsecond, map_some]
    | malformed n rest => cases hs

/-- The node's part of a reference to a node variable gives its value only if there are no dollars
    before it and the loop has not moved past it. -/
theorem node_reference_clear {val w s' : Text} (hn : n % 2 = 0) (hname : '}' ∉ name)
    (hresolve : σ.node.resolve name = some val) (hdollar : '$' ∉ val) (hne : val ≠ [])
    (hbrace : val.head? ≠ some '{')
    (h : σ.second e (dollars (n / 2) ++ '$' :: '{' :: (name ++ '}' :: w)) =
      some (dollars (n / 2) ++ val ++ s')) :
    n = 0 ∧ e ≤ 1 ∧ σ.second 0 w = some s' := by
  have hvalue : ∃ c val', val = c :: val' ∧ c ≠ '$' ∧ c ≠ '{' := by
    obtain ⟨c, val, rfl⟩ := exists_cons_of_ne_nil hne
    rw [mem_cons, not_or] at hdollar
    exact ⟨c, val, rfl, Ne.symm hdollar.1, by simpa using hbrace⟩
  obtain ⟨c, val', rfl, hc, hc'⟩ := hvalue
  rw [append_assoc, cons_append] at h
  by_cases he : n / 2 + 1 < e
  · -- the node reads the reference as text, with one dollar more
    rw [second, scan_passed _ he, map_eq_some_iff] at h
    obtain ⟨rest, -, heq⟩ := h
    have := (dollars_cons_inj (by decide) hc heq).1
    omega
  · have he : e ≤ n / 2 + 1 := Nat.le_of_not_lt he
    by_cases hodd : n / 2 % 2 = 1
    · rw [second_escape hodd he, map_eq_some_iff] at h
      obtain ⟨rest, -, heq⟩ := h
      rw [dollars_open] at heq
      exact absurd (dollars_cons_inj (by decide) hc heq).2.1.symm hc'
    · rw [second_value (by omega) he hname hresolve hdollar (Or.inr hne), map_eq_some_iff] at h
      obtain ⟨rest, hrest, heq⟩ := h
      rw [append_assoc, cons_append] at heq
      obtain ⟨hhalf, -, heq⟩ := dollars_cons_inj hc hc heq
      rw [append_cancel_left_eq] at heq
      exact ⟨by omega, by omega, heq ▸ hrest⟩

/-- Where the two stages give what the single pass gives, the tokens are clear. -/
theorem clear_of_second (hts : Canonical ts) (hsolid : Solid σ ts)
    (hplain : ∀ n name val, .reference n name ∈ ts → σ.value name = some val → '$' ∉ val)
    {w : Text} (hfirst : σ.first ts = some w) (hsecond : σ.second e w = some s)
    (hs : singlePass σ.value ts = some s) : Clear σ e ts := by
  induction ts generalizing e w s with
  | nil => trivial
  | cons t ts ih =>
    have hrest : ∀ n name val, .reference n name ∈ ts → σ.value name = some val → '$' ∉ val :=
      fun n name val hmem => hplain n name val (mem_cons_of_mem _ hmem)
    have hsolid' : Solid σ ts := fun n name val hmem => hsolid n name val (mem_cons_of_mem _ hmem)
    cases t with
    | char c =>
      rw [first_char hts.1, map_eq_some_iff] at hfirst
      obtain ⟨w, hfirst, rfl⟩ := hfirst
      rw [second_char hts hfirst, map_eq_some_iff] at hsecond
      obtain ⟨s, hsecond, rfl⟩ := hsecond
      rw [singlePass, map_eq_some_iff] at hs
      obtain ⟨s', hs, heq⟩ := hs
      obtain rfl := (cons.inj heq).2
      exact ih hts.2 hsolid' hrest hfirst hsecond hs
    | reference n name =>
      obtain ⟨hn, hname, hts⟩ := hts
      rw [singlePass_reference] at hs
      obtain ⟨val, s', hval, hs, rfl⟩ := hs
      have hdollar := hplain n name val mem_cons_self hval
      have hgood := fun h => hsolid n name val mem_cons_self h hval
      unfold Clear
      by_cases hnode : name ∈ nodeVariables
      · obtain ⟨hne, hbrace⟩ := hgood (Or.inl hnode)
        rw [first_node hn hname hnode, map_eq_some_iff] at hfirst
        obtain ⟨w, hfirst, rfl⟩ := hfirst
        obtain ⟨hzero, he, hnext⟩ := node_reference_clear hn hname (resolve_of_value hnode hval)
          hdollar hne hbrace hsecond
        rw [if_pos hnode]
        exact ⟨hzero, he, ih hts hsolid' hrest hfirst hnext hs⟩
      · have hgood : n = 0 ∨ val ≠ [] ∧ val.head? ≠ some '{' :=
          or_iff_not_imp_left.mpr fun h => hgood (Or.inr h)
        rw [first_value hn hname hnode hval hdollar (hgood.imp_right And.left),
          map_eq_some_iff] at hfirst
        obtain ⟨w, hfirst, rfl⟩ := hfirst
        rw [second_text hdollar hgood, map_eq_some_iff] at hsecond
        obtain ⟨s, hsecond, heq⟩ := hsecond
        obtain rfl := append_cancel_left heq
        rw [if_neg hnode, hval]
        exact ⟨hgood, ih hts hsolid' hrest hfirst hsecond hs⟩
    | escape n =>
      obtain ⟨hn, hts⟩ := hts
      rw [first_escape hn, map_eq_some_iff] at hfirst
      obtain ⟨w, hfirst, rfl⟩ := hfirst
      rw [singlePass, map_eq_some_iff] at hs
      obtain ⟨s', hs, rfl⟩ := hs
      by_cases he : n + 1 < e
      · rw [second, scan_passed _ he, map_eq_some_iff] at hsecond
        obtain ⟨rest, -, heq⟩ := hsecond
        rw [dollars_open] at heq
        have := (dollars_cons_inj (by decide) (by decide) heq).1
        omega
      · have he : e ≤ n + 1 := Nat.le_of_not_lt he
        rw [second_escape hn he, map_eq_some_iff] at hsecond
        obtain ⟨s, hsecond, heq⟩ := hsecond
        obtain rfl : s = s' := by simpa using heq
        exact ⟨he, ih hts hsolid' hrest hfirst hsecond hs⟩
    | malformed n rest => trivial

end

/-- An assignment with a variable of the registry and one of the node. -/
def linuxStages : Stages where
  registry :=
    { escape := false, vars := AList.insert ['x'] ['1'] ∅, reserved := ∅, parameters := ∅,
      ignore := nodeVariables }
  node :=
    { escape := true, vars := ∅, parameters := ∅, ignore := [],
      reserved := AList.insert "node.os".toList "Linux".toList ∅ }
  registry_escape := rfl
  registry_ignore := rfl
  node_escape := rfl
  node_ignore := rfl

end Ice.IceGrid
