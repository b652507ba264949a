import Ice.IceGrid.Resolver

/-!
# Substitution, character by character

`scan` reads a string from left to right and does what the loop of `substitute` does, without
positions: it counts the dollars that stand before the next character, and for how many characters a
brace cannot complete a reference because the loop has moved past its dollar.
-/

namespace Ice.IceGrid

open List Resolver

/-- The name up to the next brace, and what follows the brace. -/
def splitName : Text → Option (Text × Text)
  | [] => none
  | c :: rest =>
    if c = '}' then some ([], rest) else (splitName rest).map fun p => (c :: p.1, p.2)

theorem splitName_eq_some {rest name after : Text} :
    splitName rest = some (name, after) ↔ rest = name ++ '}' :: after ∧ '}' ∉ name := by
  induction rest generalizing name with
  | nil => simp [splitName]
  | cons c rest ih =>
    rw [splitName]
    by_cases hc : c = '}'
    · subst hc
      cases name with
      | nil => simp [eq_comm]
      | cons d name =>
        simp only [if_true, Option.some.injEq, Prod.mk.injEq, nil_eq, reduceCtorEq, false_and,
          cons_append, cons.injEq, mem_cons, not_or, false_iff, not_and]
        rintro ⟨rfl, -⟩ h
        exact absurd rfl h
    · rw [if_neg hc, Option.map_eq_some_iff]
      constructor
      · rintro ⟨⟨tail, after'⟩, hsplit, heq⟩
        obtain ⟨rfl, rfl⟩ := Prod.mk.inj heq
        obtain ⟨rfl, htail⟩ := ih.mp hsplit
        exact ⟨rfl, by simp [Ne.symm hc, htail]⟩
      · rintro ⟨hrest, hname⟩
        cases name with
        | nil => exact absurd (cons.inj hrest).1 hc
        | cons d name =>
          obtain ⟨rfl, htail⟩ := cons.inj hrest
          exact ⟨(name, after), ih.mpr ⟨htail, fun h => hname (mem_cons_of_mem _ h)⟩, rfl⟩

theorem splitName_eq_none {rest : Text} : splitName rest = none ↔ '}' ∉ rest := by
  induction rest with
  | nil => simp [splitName]
  | cons c rest ih =>
    rw [splitName]
    by_cases hc : c = '}'
    · simp [hc]
    · simp [hc, Ne.symm hc, ih]

theorem length_splitName {rest name after : Text} (h : splitName rest = some (name, after)) :
    after.length < rest.length := by
  obtain ⟨rfl, -⟩ := splitName_eq_some.mp h
  simp
  omega

/-- What scanning needs of a resolver. -/
structure Scanner where
  escape : Bool
  ignored : Text → Bool
  value : Text → Option Text

/-- Reads the rest of a string after `run` dollars. In the next `e` characters, a brace does not
    complete a reference. -/
def scan (r : Scanner) (run e : Nat) : Text → Option Text
  | [] => some (dollars run)
  | c :: rest =>
    if c = '$' then scan r (run + 1) (e - 1) rest
    else if c = '{' ∧ run ≠ 0 ∧ e = 0 then
      let n := run - 1
      if n % 2 = 1 then
        if r.escape then
          (scan r 0 ((n + 1) / 2) rest).map (dollars (n / 2) ++ '$' :: '{' :: ·)
        else (scan r 0 0 rest).map (dollars n ++ '$' :: '{' :: ·)
      else
        match _h : splitName rest with
        | none => none
        | some (name, after) =>
          if r.ignored name then (scan r 0 0 rest).map (dollars (n / 2) ++ '$' :: '{' :: ·)
          else
            match r.value name with
            | none => none
            | some val =>
              let text := dollars (n / 2) ++ val
              (scan r (trailing text) 1 after).map (text.take (text.length - trailing text) ++ ·)
    else (scan r 0 (e - 1) rest).map (dollars run ++ c :: ·)
termination_by rest => rest.length
decreasing_by
  all_goals simp_wf
  have := length_splitName _h
  omega

section scan

variable (r : Scanner)

theorem scan_nil (run e : Nat) : scan r run e [] = some (dollars run) := by
  rw [scan]

theorem scan_dollar (run e : Nat) (rest : Text) :
    scan r run e ('$' :: rest) = scan r (run + 1) (e - 1) rest := by
  rw [scan, if_pos rfl]

theorem scan_char {c : Char} (hc : c ≠ '$') (run e : Nat) (rest : Text)
    (h : c = '{' → run = 0 ∨ e ≠ 0) :
    scan r run e (c :: rest) = (scan r 0 (e - 1) rest).map (dollars run ++ c :: ·) := by
  rw [scan, if_neg hc, if_neg]
  rintro ⟨hbrace, hrun, he⟩
  exact (h hbrace).elim hrun fun hne => hne he

theorem scan_escaped {n : Nat} (hn : n % 2 = 1) (rest : Text) : scan r (n + 1) 0 ('{' :: rest) =
      if r.escape then (scan r 0 ((n + 1) / 2) rest).map (dollars (n / 2) ++ '$' :: '{' :: ·)
      else (scan r 0 0 rest).map (dollars n ++ '$' :: '{' :: ·) := by
  rw [scan]
  simp [hn]

theorem scan_reference {n : Nat} (hn : n % 2 = 0) {rest name after : Text}
    (hsplit : splitName rest = some (name, after)) : scan r (n + 1) 0 ('{' :: rest) =
      if r.ignored name then (scan r 0 0 rest).map (dollars (n / 2) ++ '$' :: '{' :: ·)
      else
        match r.value name with
        | none => none
        | some val =>
          let text := dollars (n / 2) ++ val
          (scan r (trailing text) 1 after).map (text.take (text.length - trailing text) ++ ·) := by
  rw [scan, if_neg (by decide), if_pos ⟨rfl, Nat.succ_ne_zero n, rfl⟩]
  rw [Nat.add_sub_cancel, if_neg (by omega)]
  split
  · next heq => simp [hsplit] at heq
  · next name' after' heq =>
    obtain ⟨rfl, rfl⟩ := Prod.mk.inj (Option.some.inj (hsplit.symm.trans heq))
    rfl

theorem scan_malformed {n : Nat} (hn : n % 2 = 0) {rest : Text} (hsplit : splitName rest = none) :
    scan r (n + 1) 0 ('{' :: rest) = none := by
  rw [scan, if_neg (by decide), if_pos ⟨rfl, Nat.succ_ne_zero n, rfl⟩]
  rw [Nat.add_sub_cancel, if_neg (by omega)]
  split
  · rfl
  · next heq => simp [hsplit] at heq

end scan

/-! ## The loop of `substitute` -/

/-- A resolver, as it is used by `apply`. -/
def Resolver.scanner (r : Resolver) : Scanner where
  escape := r.escape
  ignored name := decide (name ∈ r.ignore)
  value := r.resolve

theorem findBrace_append (before rest : Text) :
    findBrace (before ++ '$' :: '{' :: rest) before.length =
      if '}' ∈ rest then some (before.length + 2 + (rest.takeWhile (· ≠ '}')).length)
      else none := by
  rw [findBrace, drop_left]
  by_cases h : '}' ∈ rest
  · simp [h]
    omega
  · simp [h]

/-- Everything before the last dollars of a string. -/
def beforeDollars (s : Text) : Text := s.take (s.length - trailing s)

theorem beforeDollars_append (s : Text) : beforeDollars s ++ dollars (trailing s) = s :=
  take_append_dollars s

theorem beforeDollars_concat_dollar (s : Text) : beforeDollars (s ++ ['$']) = beforeDollars s := by
  have hlength : (s ++ ['$']).length - (trailing s + 1) = s.length - trailing s := by simp
  rw [beforeDollars, trailing_concat, if_pos rfl, hlength, take_append_of_le_length (by omega),
    beforeDollars]

theorem beforeDollars_eq_self {s : Text} (hs : trailing s = 0) : beforeDollars s = s := by
  rw [beforeDollars, hs, Nat.sub_zero, take_length]

theorem beforeDollars_of_trailing {s : Text} (hs : trailing s = 0) (t : Text) :
    beforeDollars (s ++ t) = s ++ beforeDollars t := by
  have hle := trailing_le t
  have hlength : (s ++ t).length - trailing t = s.length + (t.length - trailing t) := by
    simp only [length_append]
    omega
  rw [beforeDollars, trailing_append hs, hlength, take_length_add_append, beforeDollars]

theorem replace_dollars (before : Text) (n : Nat) (rest text : Text) :
    replace (before ++ dollars n ++ rest) before.length n text = before ++ text ++ rest := by
  rw [replace, append_assoc before (dollars n) rest, take_left]
  congr 1
  have hlength : before.length + n = (before ++ dollars n).length := by simp
  rw [← append_assoc, hlength, drop_left]

/-- The reference that the loop finds: a brace after dollars, if the loop has not moved past the
    last of them. -/
theorem find_append {before : Text} {n beg : Nat}
    (hdone : findReference ((before ++ dollars (n + 1)).drop beg) = none)
    (hbeg : beg ≤ before.length + n) (rest : Text) :
    find (before ++ dollars (n + 1) ++ '{' :: rest) beg = some (before.length + n) := by
  have hsplit : before ++ dollars (n + 1) = (before ++ dollars n) ++ ['$'] := by
    rw [dollars_add, append_assoc]
    rfl
  have hlength : beg ≤ (before ++ dollars n).length := by simpa using hbeg
  rw [hsplit, drop_append_of_le_length hlength] at hdone
  rw [find, hsplit, append_assoc, drop_append_of_le_length hlength]
  have hfind := findReference_append hdone rest
  simp only [cons_append, nil_append]
  rw [hfind, Option.map_some, length_drop]
  congr 1
  simp
  omega

section loop

variable (r : Resolver) {fuel : Nat} {before rest : Text} {n beg : Nat}

/-- The number of dollars that the loop counts before a reference. -/
theorem trailing_take_reference (hbefore : trailing before = 0) (n : Nat) (rest : Text) :
    trailing ((before ++ dollars (n + 1) ++ '{' :: rest).take (before.length + n)) = n := by
  have hlength : before.length + n = (before ++ dollars n).length := by simp
  rw [dollars_add, ← append_assoc before, append_assoc _ (dollars 1), hlength,
    take_left, trailing_append hbefore]
  simpa [trailing] using trailing_append_dollars [] n

theorem reference_eq (before rest : Text) (n : Nat) :
    before ++ dollars (n + 1) ++ '{' :: rest = before ++ dollars n ++ '$' :: '{' :: rest := by
  rw [dollars_add, ← append_assoc before, append_assoc _ (dollars 1)]
  rfl

/-- One round of the loop at an escaped reference. -/
theorem substituteLoop_escaped (hbefore : trailing before = 0) (hn : n % 2 = 1)
    (hdone : findReference ((before ++ dollars (n + 1)).drop beg) = none)
    (hbeg : beg ≤ before.length + n) :
    r.substituteLoop true true r.recurseAt (fuel + 1)
      (before ++ dollars (n + 1) ++ '{' :: rest) beg =
      r.substituteLoop true true r.recurseAt fuel
        (before ++ dollars (if r.escape then n / 2 else n) ++ '$' :: '{' :: rest)
        (before.length + n + 1) := by
  rw [substituteLoop, find_append hdone hbeg]
  simp only [trailing_take_reference hbefore, hn, if_true, Nat.add_sub_cancel]
  rw [reference_eq, replace_dollars]
  cases r.escape <;> rfl

/-- One round of the loop at a reference that is not escaped. -/
theorem substituteLoop_reference (hbefore : trailing before = 0) (hn : n % 2 = 0)
    (hdone : findReference ((before ++ dollars (n + 1)).drop beg) = none)
    (hbeg : beg ≤ before.length + n) :
    r.substituteLoop true true r.recurseAt (fuel + 1)
      (before ++ dollars (n + 1) ++ '{' :: rest) beg =
      match splitName rest with
      | none => .error (.malformed (before ++ dollars (n / 2) ++ '$' :: '{' :: rest))
      | some (name, after) =>
        if name ∈ r.ignore then
          r.substituteLoop true true r.recurseAt fuel
            (before ++ dollars (n / 2) ++ '$' :: '{' :: rest) (before.length + n / 2 + 1)
        else
          r.resolveWith true r.recurseAt name >>= fun val =>
            r.substituteLoop true true r.recurseAt fuel (before ++ dollars (n / 2) ++ val ++ after)
              (before.length + n / 2 + val.length) := by
  have hhalf : before.length + n - n / 2 = before.length + n / 2 := by omega
  have hlength : before.length + n / 2 = (before ++ dollars (n / 2)).length := by simp
  rw [substituteLoop, find_append hdone hbeg]
  simp only [trailing_take_reference hbefore, hn, Nat.zero_ne_one, if_false, Nat.add_sub_cancel]
  rw [reference_eq, replace_dollars, hhalf, hlength, findBrace_append]
  generalize before ++ dollars (n / 2) = start
  cases hsplit : splitName rest with
  | none => rw [if_neg (splitName_eq_none.mp hsplit)]
  | some p =>
    obtain ⟨name, after⟩ := p
    obtain ⟨rfl, hname⟩ := splitName_eq_some.mp hsplit
    have hall : ∀ c ∈ name, decide (c ≠ '}') = true := by
      intro c hc
      simpa using fun h : c = '}' => hname (h ▸ hc)
    have htake : (name ++ '}' :: after).takeWhile (· ≠ '}') = name := by
      rw [takeWhile_append_of_pos hall]
      simp
    rw [if_pos (by simp), htake]
    dsimp only
    have hdrop : (start ++ '$' :: '{' :: (name ++ '}' :: after)).drop (start.length + 2) =
        name ++ '}' :: after := by
      rw [drop_length_add_append]
      rfl
    rw [hdrop, show start.length + 2 + name.length - start.length - 2 =
      name.length by omega, take_left]
    have hreplace : ∀ val : Text,
        replace (start ++ '$' :: '{' :: (name ++ '}' :: after)) start.length
          (start.length + 2 + name.length - start.length + 1) val = start ++ val ++ after := by
      intro val
      rw [replace, take_left, drop_append]
      congr 1
      rw [show start.length + (start.length + 2 + name.length - start.length + 1) - start.length =
        2 + (name.length + 1) by omega]
      simp [Nat.add_comm 2]
    simp only [hreplace, if_true]

end loop

theorem trailing_eq_zero_iff (s : Text) : trailing s = 0 ↔ s.getLast? ≠ some '$' := by
  induction s using reverseRecOn with
  | nil => simp [trailing]
  | append_singleton s c => by_cases hc : c = '$' <;> simp [trailing_concat, hc]

/-- Reading a character that completes no reference. -/
theorem findReference_drop_concat {s : Text} {beg : Nat} (hs : findReference (s.drop beg) = none)
    {c : Char} (hc : c = '{' → trailing s = 0 ∨ s.length ≤ beg) :
    findReference ((s ++ [c]).drop beg) = none := by
  by_cases hbeg : beg < s.length
  · rw [drop_append_of_le_length (Nat.le_of_lt hbeg)]
    refine findReference_concat hs fun hbrace => ?_
    have htrailing := (hc hbrace).resolve_right (by omega)
    rw [trailing_eq_zero_iff] at htrailing ⊢
    rwa [getLast?_drop, if_neg (by omega)]
  · apply findReference_of_length_le_one
    simp
    omega

theorem trailing_open (s : Text) : trailing (s ++ ['$', '{']) = 0 := by
  rw [trailing_eq_zero_iff]
  simp

/-- The loop does what `scan` says. Here `done` is what has been read: it ends in the dollars that
    are counted, and has no reference at the position of the loop or after it. -/
theorem substituteLoop_eq_scan (r : Resolver) (fuel : Nat) (done rest : Text) (beg : Nat)
    (hfuel : rest.length < fuel) (hdone : findReference (done.drop beg) = none) :
    (r.substituteLoop true true r.recurseAt fuel (done ++ rest) beg).toOption =
      (scan r.scanner (trailing done) (beg + 1 - done.length) rest).map
      (beforeDollars done ++ ·) := by
  -- induction on the number of characters that are left
  induction hlength : rest.length using Nat.strong_induction_on generalizing fuel done rest beg with
  | _ length ih =>
  obtain ⟨fuel, rfl⟩ : ∃ m, fuel = m + 1 := ⟨fuel - 1, by omega⟩
  match rest with
  | [] =>
    rw [append_nil, substituteLoop, find, hdone, scan_nil]
    simp [beforeDollars_append, Except.toOption]
  | c :: rest =>
    rw [length_cons] at hlength hfuel
    -- a character that completes no reference is read without a round of the loop
    have hread : (c = '{' → trailing done = 0 ∨ done.length ≤ beg) →
        (r.substituteLoop true true r.recurseAt (fuel + 1) (done ++ c :: rest) beg).toOption =
          (scan r.scanner (trailing (done ++ [c])) (beg + 1 - (done ++ [c]).length) rest).map
            (beforeDollars (done ++ [c]) ++ ·) := by
      intro hc
      have hnext := ih rest.length (by omega) (fuel + 1) (done ++ [c]) rest beg (by omega)
        (findReference_drop_concat hdone hc) rfl
      rwa [append_assoc, singleton_append] at hnext
    by_cases hdollar : c = '$'
    · subst hdollar
      rw [hread fun h => absurd h (by decide), scan_dollar, trailing_concat, if_pos rfl,
        beforeDollars_concat_dollar, length_append, length_singleton, Nat.sub_add_eq]
    · by_cases href : c = '{' ∧ trailing done ≠ 0 ∧ beg + 1 - done.length = 0
      · obtain ⟨rfl, hrun, hpassed⟩ := href
        obtain ⟨n, hn⟩ : ∃ n, trailing done = n + 1 := ⟨trailing done - 1, by omega⟩
        have hbefore : trailing (beforeDollars done) = 0 := trailing_take done
        have hsplit := beforeDollars_append done
        rw [hn] at hsplit
        rw [hn, hpassed]
        generalize beforeDollars done = before at hbefore hsplit
        rw [← hsplit] at hdone hpassed ⊢
        have hbeg : beg ≤ before.length + n := by
          simp at hpassed
          omega
        -- the `${` of the reference is kept, and `k` says how far the loop has moved
        have hopen : ∀ m k, m ≤ k →
            (r.substituteLoop true true r.recurseAt fuel (before ++ dollars m ++ '$' :: '{' :: rest)
              (before.length + k + 1)).toOption =
              (scan r.scanner 0 (k - m) rest).map (before ++ dollars m ++ '$' :: '{' :: ·) := by
          intro m k hm
          have hnext := ih rest.length (by omega) fuel (before ++ dollars m ++ ['$', '{']) rest
            (before.length + k + 1) (by omega) (findReference_of_length_le_one (by simp; omega)) rfl
          rw [trailing_open, beforeDollars_eq_self (trailing_open _), append_assoc] at hnext
          rw [show before.length + k + 1 + 1 - (before ++ dollars m ++ ['$', '{']).length = k - m by
            simp; omega] at hnext
          simpa using hnext
        by_cases hodd : n % 2 = 1
        · rw [substituteLoop_escaped r hbefore hodd hdone hbeg, hopen _ n (by split <;> omega),
            scan_escaped _ hodd]
          by_cases hescape : r.escape = true
          · have hhalf : n - n / 2 = (n + 1) / 2 := by omega
            simp [scanner, hescape, hhalf, Function.comp_def]
          · simp [scanner, hescape, Function.comp_def]
        · have heven : n % 2 = 0 := by omega
          rw [substituteLoop_reference r hbefore heven hdone hbeg]
          cases hname : splitName rest with
          | none => simp [scan_malformed _ heven hname, Except.toOption]
          | some p =>
            obtain ⟨name, after⟩ := p
            rw [scan_reference _ heven hname]
            dsimp only
            by_cases hignore : name ∈ r.ignore
            · rw [if_pos hignore, hopen _ _ le_rfl]
              simp [scanner, hignore, Function.comp_def]
            · rw [if_neg hignore, if_neg (by simpa [scanner] using hignore)]
              cases hval : r.resolveWith true r.recurseAt name with
              | error e => simp [scanner, resolve, hval, Except.toOption, bind,
                  Except.bind]
              | ok val =>
                have hnext := ih after.length (by have := length_splitName hname; omega)
                  fuel (before ++ (dollars (n / 2) ++ val)) after
                  (before.length + n / 2 + val.length)
                  (by have := length_splitName hname; omega)
                  (findReference_of_length_le_one (by simp; omega)) rfl
                rw [trailing_append hbefore, beforeDollars_of_trailing hbefore,
                  show before.length + n / 2 + val.length + 1 -
                    (before ++ (dollars (n / 2) ++ val)).length = 1 by simp; omega] at hnext
                simp only [scanner, resolve, hval, Except.toOption, bind, Except.bind] at hnext ⊢
                rw [← append_assoc before] at hnext
                rw [hnext]
                simp [Function.comp_def, beforeDollars]
      · have hnot : c = '{' → trailing done = 0 ∨ beg + 1 - done.length ≠ 0 := by
          intro hc
          by_contra hno
          rw [not_or, not_not] at hno
          exact href ⟨hc, hno.1, hno.2⟩
        rw [hread fun hc => (hnot hc).imp_right (by omega), scan_char _ hdollar _ _ _ hnot,
          trailing_concat, if_neg hdollar, length_append, length_singleton,
          Nat.sub_add_eq, beforeDollars_eq_self (by rw [trailing_concat, if_neg hdollar])]
        have hsplit : ∀ s : Text, done ++ [c] ++ s =
            beforeDollars done ++ (dollars (trailing done) ++ c :: s) := by
          intro s
          rw [← append_assoc, beforeDollars_append, append_assoc]
          rfl
        simp only [hsplit, Option.map_map, Function.comp_def]

/-- Without dollars before it, the first character completes no reference. -/
theorem scan_zero_one (r : Scanner) (rest : Text) : scan r 0 1 rest = scan r 0 0 rest := by
  cases rest with
  | nil => rw [scan_nil, scan_nil]
  | cons c rest =>
    by_cases hc : c = '$'
    · rw [hc, scan_dollar, scan_dollar]
    · rw [scan_char r hc 0 1 rest fun _ => Or.inl rfl, scan_char r hc 0 0 rest fun _ => Or.inl rfl]

theorem Resolver.apply_eq_scan (r : Resolver) (v : Text) :
    (r.apply v).toOption = scan r.scanner 0 0 v := by
  have h := substituteLoop_eq_scan r (v.length + 1) [] v 0 (Nat.lt_succ_self v.length) rfl
  rw [nil_append] at h
  rw [r.apply_eq, h, ← scan_zero_one]
  simp [beforeDollars, trailing]

end Ice.IceGrid
