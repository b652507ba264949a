import Ice.Proxy.StringUtil

/-!
# Command lines

`Options::split` (`cpp/src/Ice/Options.cpp:108-501`) cuts a command line into arguments, with the
quoting rules of bash. It returns the arguments that were quoted.
-/

namespace Ice.CommandLine

open Ice.Proxy List

/-- The state of the loop of `Options::split`. -/
inductive ParseState where
  | normal
  | doubleQuote
  | singleQuote
  | ansiQuote
deriving DecidableEq, Repr

/-- Internal Field Separator. -/
def ifs : Text := [' ', '\t', '\n']

/-- What is written for a character behind a backslash outside quotes. -/
def normalEscape (c : Char) : Text :=
  if c = '\n' then [] else if c ∈ [' ', '$', '\'', '"'] then [c] else ['\\', c]

/-- What is written for a character behind a backslash within double quotes. -/
def doubleQuoteEscape (c : Char) : Text :=
  if c ∈ ['"', '\\', '\n'] then [c] else ['\\', c]

/-- The single-letter escape sequences of `$'...'`. -/
def ansiLetters : List (Char × Char) :=
  [('a', '\x07'), ('b', '\x08'), ('f', '\x0c'), ('n', '\n'), ('r', '\r'), ('t', '\t'),
    ('v', '\x0b'), ('\\', '\\'), ('\'', '\''), ('e', '\x1b')]

/-- What is written for a backslash within `$'...'` that `s` follows, and how many characters of `s`
    it takes. -/
def ansiEscape : Text → Text × Nat
  | [] => ([], 0)
  | c :: s =>
    match ansiLetters.lookup c with
    | some d => ([d], 1)
    | none =>
      if (octalValue c).isSome then
        let (us, missing, _) := readBase 8 octalValue 3 0 (c :: s)
        ([Char.ofNat (us % 256)], 3 - missing)
      else if c = 'x' then
        if s.head?.any fun d => (hexValue d).isNone then (['\\', 'x'], 1)
        else
          let (ull, missing, _) := readBase 16 hexValue 2 0 s
          ([Char.ofNat ull], 1 + (2 - missing))
      else if c = 'c' then
        -- at the end of the line this is the terminating null character
        let d := s.headD '\x00'
        if d.isAlpha ∨ d = '@' ∨ '[' ≤ d ∧ d ≤ '_' then ([Char.ofNat (d.toUpper.toNat - 64)], 2)
        else (['\\', 'c', d], 2)
      else (['\\', c], 1)

/-- The loop of `Options::split` with the argument that it is in; the next `skip` characters are
    read already. -/
def splitFrom : ParseState → Nat → Text → Text → Except String (List Text)
  | .normal, _, [], arg => .ok [arg]
  | .singleQuote, _, [], _ => .error "missing closing single quote"
  | .doubleQuote, _, [], _ => .error "missing closing double quote"
  | .ansiQuote, _, [], _ => .error "unterminated $' quote"
  | state, skip + 1, _ :: l, arg => splitFrom state skip l arg
  | .normal, 0, c :: l, arg =>
    if c = '\\' then splitFrom .normal 1 l (arg ++ l.head?.elim [] normalEscape)
    else if c = '\'' then splitFrom .singleQuote 0 l arg
    else if c = '"' then splitFrom .doubleQuote 0 l arg
    else if c = '$' then
      if l.head? = some '\'' then splitFrom .ansiQuote 1 l arg
      else splitFrom .normal 0 l (arg ++ ['$'])
    else if c ∈ ifs then (arg :: ·) <$> splitFrom .normal (l.takeWhile (· ∈ ifs)).length l []
    else splitFrom .normal 0 l (arg ++ [c])
  | .doubleQuote, 0, c :: l, arg =>
    if c = '\\' ∧ l ≠ [] then splitFrom .doubleQuote 1 l (arg ++ l.head?.elim [] doubleQuoteEscape)
    else if c = '"' then splitFrom .normal 0 l arg
    else splitFrom .doubleQuote 0 l (arg ++ [c])
  | .singleQuote, 0, c :: l, arg =>
    if c = '\'' then splitFrom .normal 0 l arg else splitFrom .singleQuote 0 l (arg ++ [c])
  | .ansiQuote, 0, c :: l, arg =>
    if c = '\\' then splitFrom .ansiQuote (ansiEscape l).2 l (arg ++ (ansiEscape l).1)
    else if c = '\'' then splitFrom .normal 0 l arg
    else splitFrom .ansiQuote 0 l (arg ++ [c])

def split (line : Text) : Except String (List Text) :=
  match (line.dropWhile (· ∈ ifs)).rdropWhile (· ∈ ifs) with
  | [] => .ok []
  | l => splitFrom .normal 0 l []

/-! ### Quoting -/

/-- A way to quote an argument. -/
inductive Quoting where
  | single
  | double
  | ansi
deriving DecidableEq, Repr

namespace Quoting

/-- A character between the quotes. -/
def escape : Quoting → Char → Text
  | single, c => if c = '\'' then ['\'', '\\', '\'', '\''] else [c]
  | double, c => if c = '\\' ∨ c = '"' then ['\\', c] else [c]
  | ansi, c => if c = '\\' ∨ c = '\'' then ['\\', c] else [c]

def opening : Quoting → Text
  | single => ['\'']
  | double => ['"']
  | ansi => ['$', '\'']

def closing : Quoting → Char
  | double => '"'
  | _ => '\''

/-- The state between the quotes. -/
def state : Quoting → ParseState
  | single => .singleQuote
  | double => .doubleQuote
  | ansi => .ansiQuote

def quote (q : Quoting) (arg : Text) : Text := q.opening ++ (arg.flatMap q.escape ++ [q.closing])

end Quoting

open Quoting

/-- A command line of quoted arguments, each with the blanks before it. -/
def quoteAll : List (Text × Quoting × Text) → Text
  | [] => []
  | (_, q, arg) :: rest => q.quote arg ++ rest.flatMap fun (blanks, q, arg) => blanks ++ q.quote arg

theorem splitFrom_skip (state : ParseState) (read l arg : Text) :
    splitFrom state read.length (read ++ l) arg = splitFrom state 0 l arg := by
  induction read with
  | nil => rfl
  | cons c read ih => simpa [splitFrom] using ih

variable (q : Quoting) (rest : Text)

/-- A quoted character is read as that character. -/
theorem splitFrom_escape (c : Char) (read : Text) :
    splitFrom q.state 0 (q.escape c ++ rest) read = splitFrom q.state 0 rest (read ++ [c]) := by
  cases q with
  | single => by_cases hc : c = '\'' <;> simp [escape, state, splitFrom, hc, normalEscape]
  | double =>
    by_cases hc : c = '\\' ∨ c = '"'
    · rcases hc with rfl | rfl <;> simp [escape, state, splitFrom, doubleQuoteEscape]
    · simp [escape, state, splitFrom, not_or.mp hc]
  | ansi =>
    by_cases hc : c = '\\' ∨ c = '\''
    · rcases hc with rfl | rfl <;> simp [escape, state, splitFrom, ansiEscape, ansiLetters, lookup]
    · simp [escape, state, splitFrom, not_or.mp hc]

theorem splitFrom_body (arg read : Text) :
    splitFrom q.state 0 (arg.flatMap q.escape ++ q.closing :: rest) read =
    splitFrom .normal 0 rest (read ++ arg) := by
  induction arg generalizing read with
  | nil => cases q <;> simp [state, closing, splitFrom]
  | cons c arg ih =>
    rw [flatMap_cons, append_assoc, splitFrom_escape, ih, append_assoc]
    rfl

theorem splitFrom_quote (arg : Text) :
    splitFrom .normal 0 (q.quote arg ++ rest) [] = splitFrom .normal 0 rest arg := by
  have hbody := splitFrom_body q rest arg []
  rw [nil_append] at hbody
  rw [← hbody]
  cases q <;> simp [quote, opening, state, splitFrom]

theorem quote_head (arg : Text) : ∃ c l, q.quote arg = c :: l ∧ c ∉ ifs := by
  cases q <;> exact ⟨_, _, rfl, by decide⟩

/-- Blanks end an argument. -/
theorem splitFrom_blanks {blanks : Text} (hne : blanks ≠ []) (hblank : ∀ c ∈ blanks, c ∈ ifs)
    (arg read : Text) :
    splitFrom .normal 0 (blanks ++ (q.quote arg ++ rest)) read =
      (read :: ·) <$> splitFrom .normal 0 (q.quote arg ++ rest) [] := by
  obtain ⟨c, l, hquote, hc⟩ := quote_head q arg
  obtain ⟨b, bs, rfl⟩ := exists_cons_of_ne_nil hne
  have htake : (bs ++ (q.quote arg ++ rest)).takeWhile (· ∈ ifs) = bs := by
    rw [takeWhile_append_of_pos fun c hc => by simpa using hblank c (mem_cons_of_mem b hc)]
    simp [hquote, hc]
  have hskip := splitFrom_skip .normal bs (q.quote arg ++ rest) []
  rw [← hskip, cons_append, splitFrom, htake]
  have hb : b = ' ' ∨ b = '\t' ∨ b = '\n' := by simpa [ifs] using hblank b mem_cons_self
  rcases hb with rfl | rfl | rfl <;> rfl

theorem splitFrom_quotes {args : List (Text × Quoting × Text)}
    (hblanks : ∀ a ∈ args, a.1 ≠ [] ∧ ∀ c ∈ a.1, c ∈ ifs) (read : Text) :
    splitFrom .normal 0 (args.flatMap fun (blanks, q, arg) => blanks ++ q.quote arg) read =
      .ok (read :: args.map (·.2.2)) := by
  induction args generalizing read with
  | nil => rfl
  | cons a args ih =>
    obtain ⟨hne, hblank⟩ := hblanks a mem_cons_self
    rw [flatMap_cons, append_assoc, splitFrom_blanks _ _ hne hblank, splitFrom_quote,
      ih fun a ha => hblanks a (mem_cons_of_mem _ ha)]
    rfl

theorem quoteAll_last (a : Text × Quoting × Text) (args : List (Text × Quoting × Text)) :
    ∃ l c, quoteAll (a :: args) = l ++ [c] ∧ c ∉ ifs := by
  have hquote (l : Text) (a : Text × Quoting × Text) : ∃ l' c, l ++ a.2.1.quote a.2.2 = l' ++ [c] ∧
      c ∉ ifs := by
    refine ⟨l ++ (a.2.1.opening ++ a.2.2.flatMap a.2.1.escape), a.2.1.closing, by simp [quote], ?_⟩
    cases a.2.1 <;> decide
  rcases eq_nil_or_concat args with rfl | ⟨args, b, rfl⟩
  · simpa [quoteAll] using hquote [] a
  · simpa [quoteAll]
      using hquote (a.2.1.quote a.2.2 ++ (args.flatMap fun x => x.1 ++ x.2.1.quote x.2.2) ++ b.1) b

/-- Splitting a command line inverts quoting. -/
theorem split_quoteAll (args : List (Text × Quoting × Text))
    (hblanks : ∀ a ∈ args.tail, a.1 ≠ [] ∧ ∀ c ∈ a.1, c ∈ ifs) :
    split (quoteAll args) = .ok (args.map (·.2.2)) := by
  cases args with
  | nil => rfl
  | cons a args =>
    obtain ⟨l, c, hlast, hc⟩ := quoteAll_last a args
    obtain ⟨d, l', hhead, hd⟩ := quote_head a.2.1 a.2.2
    have hstrip : ((quoteAll (a :: args)).dropWhile (· ∈ ifs)).rdropWhile (· ∈ ifs) =
        quoteAll (a :: args) := by
      have hfirst : (quoteAll (a :: args)).dropWhile (· ∈ ifs) = quoteAll (a :: args) := by
        simp [quoteAll, hhead, hd]
      rw [hfirst, hlast, rdropWhile_concat_neg _ _ _ (by simpa using hc)]
    have hsplit : split (quoteAll (a :: args)) = splitFrom .normal 0 (quoteAll (a :: args)) [] := by
      rw [split, hstrip]
      simp [hlast]
    rw [hsplit, quoteAll, splitFrom_quote]
    exact splitFrom_quotes hblanks a.2.2

theorem split_quoteAll_two : split ['\'', '\'', ' ', '"', '\\', '\\', '"'] = .ok [[], ['\\']] :=
  split_quoteAll [([], .single, []), ([' '], .double, ['\\'])] (by simp [ifs])

end Ice.CommandLine
