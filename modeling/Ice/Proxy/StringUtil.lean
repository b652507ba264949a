import Mathlib

/-!
# Escape sequences

`escapeString` and `unescapeString` (`cpp/src/Ice/StringUtil.cpp`), without a process string
converter. A string is a list of its bytes, each as the character with that code.
-/

namespace Ice.Proxy

abbrev Text := List Char

/-- How strings with characters outside of printable ASCII are written. -/
inductive ToStringMode where
  | unicode
  | ascii
  | compat
deriving DecidableEq, Repr

/-- What the `invalid_argument` exceptions say. -/
inductive InvalidArgument where
  | special
  | sequenceTooShort
  | invalidSequence
  | invalidFirstByte (b : Char)
  | invalidOrdinal (c : Char)
  | surrogate
  | invalidUniversalName
  | tooFewHexDigits
  | octalOutOfRange (val : Nat)
  | noHexDigit
deriving DecidableEq, Repr

/-! ## Escaping -/

def toHexDigit (b : Nat) : Char := if b < 10 then Char.ofNat (48 + b) else Char.ofNat (97 - 10 + b)

/-- The hexadecimal digits of a code point, the last `n` of them. -/
def hexDigits (codePoint : Nat) : Nat → Text
  | 0 => []
  | j + 1 => toHexDigit (codePoint / 16 ^ j % 16) :: hexDigits codePoint j

/-- A byte of the form `10xxxxxx`. -/
def addContinuationByte (p : Text) (codePoint : Nat) : Except InvalidArgument (Nat × Text) :=
  match p with
  | [] => .error .sequenceTooShort
  | b :: p =>
    if b.toNat / 64 ≠ 2 then .error .invalidSequence
    else .ok (codePoint * 64 + b.toNat % 64, p)

/-- The code point that starts with the byte `c`, and the bytes behind it. -/
def readCodePoint (c : Char) (p : Text) : Except InvalidArgument (Nat × Text) :=
  if c.toNat / 32 = 0x06 then addContinuationByte p (c.toNat % 32)
  else if c.toNat / 16 = 0x0E then do
    let (codePoint, p) ← addContinuationByte p (c.toNat % 16)
    addContinuationByte p codePoint
  else if c.toNat / 8 = 0x1E then do
    let (codePoint, p) ← addContinuationByte p (c.toNat % 8)
    let (codePoint, p) ← addContinuationByte p codePoint
    addContinuationByte p codePoint
  else .error (.invalidFirstByte c)

/-- The universal character name of a code point. -/
def universalName (codePoint : Nat) : Text :=
  if codePoint > 0xFFFF then '\\' :: 'U' :: hexDigits codePoint 8
  else '\\' :: 'u' :: hexDigits codePoint 4

/-- `appendUniversalName`: a UTF-8 sequence of several bytes as a universal character name, and the
    bytes behind it. -/
def appendUniversalName (c : Char) (p : Text) : Except InvalidArgument (Text × Text) := do
  let (codePoint, p) ← readCodePoint c p
  return (universalName codePoint, p)

/-- `os << oct << setfill('0') << setw(3) << i`. -/
def octal (i : Nat) : Text :=
  [Char.ofNat (48 + i / 64), Char.ofNat (48 + i / 8 % 8), Char.ofNat (48 + i % 8)]

/-- The escape of a byte that has one in every mode and whatever is special. -/
def simpleEscape (mode : ToStringMode) (c : Char) : Option Text :=
  match c.toNat with
  | 92 => some ['\\', '\\']
  | 39 => some ['\\', '\'']
  | 34 => some ['\\', '"']
  | 7 => some (if mode = .compat then ['\\', '0', '0', '7'] else ['\\', 'a'])
  | 8 => some ['\\', 'b']
  | 12 => some ['\\', 'f']
  | 10 => some ['\\', 'n']
  | 13 => some ['\\', 'r']
  | 9 => some ['\\', 't']
  | 11 => some (if mode = .compat then ['\\', '0', '1', '3'] else ['\\', 'v'])
  | _ => none

/-- The body of the loop of `escapeString`: what is appended for the byte `c` and those of `p` that
    belong to it, and the bytes that are left. -/
def escapeChar (special : Text) (mode : ToStringMode) (c : Char) (p : Text) :
    Except InvalidArgument (Text × Text) :=
  match simpleEscape mode c with
  | some e => .ok (e, p)
  | none =>
    if c ∈ special then .ok (['\\', c], p)
    else if c.toNat < 32 ∨ c.toNat > 126 then
      if mode = .compat then .ok ('\\' :: octal c.toNat, p)
      else if c.toNat < 32 ∨ c.toNat = 127 then
        .ok (['\\', 'u', '0', '0', toHexDigit (c.toNat / 16), toHexDigit (c.toNat % 16)], p)
      else if mode = .ascii then appendUniversalName c p
      else .ok ([c], p)
    else .ok ([c], p)

/-- The loop of `escapeString`. The fuel bounds the number of bytes. -/
def escapeLoop (special : Text) (mode : ToStringMode) : Nat → Text → Except InvalidArgument Text
  | _, [] => .ok []
  | 0, _ :: _ => .ok []
  | fuel + 1, c :: p => do
    let (e, p) ← escapeChar special mode c p
    let result ← escapeLoop special mode fuel p
    return e ++ result

/-- The check of the special characters at the start of both functions. -/
def checkSpecial (special : Text) : Except InvalidArgument Unit :=
  if special.any fun c => c.toNat < 32 || c.toNat > 126 then .error .special else .ok ()

def escapeString (s special : Text) (mode : ToStringMode) : Except InvalidArgument Text := do
  checkSpecial special
  escapeLoop special mode s.length s

/-! ## Unescaping -/

def checkChar (c : Char) : Except InvalidArgument Char :=
  if c.toNat < 32 ∨ c.toNat = 127 then .error (.invalidOrdinal c) else .ok c

/-- A code point as a UTF-8 sequence. -/
def appendUTF8 (codePoint : Nat) : Except InvalidArgument Text :=
  if 0xD800 ≤ codePoint ∧ codePoint ≤ 0xDFFF then .error .surrogate
  else if codePoint ≤ 0x7F then .ok [Char.ofNat codePoint]
  else if codePoint ≤ 0x7FF then
    .ok [Char.ofNat (codePoint / 64 + 0xC0), Char.ofNat (codePoint % 64 + 0x80)]
  else if codePoint ≤ 0xFFFF then
    .ok [Char.ofNat (codePoint / 4096 + 0xE0), Char.ofNat (codePoint / 64 % 64 + 0x80),
      Char.ofNat (codePoint % 64 + 0x80)]
  else if codePoint ≤ 0x10FFFF then
    .ok [Char.ofNat (codePoint / 262144 + 0xF0), Char.ofNat (codePoint / 4096 % 64 + 0x80),
      Char.ofNat (codePoint / 64 % 64 + 0x80), Char.ofNat (codePoint % 64 + 0x80)]
  else .error .invalidUniversalName

def hexValue (c : Char) : Option Nat :=
  if '0' ≤ c ∧ c ≤ '9' then some (c.toNat - 48)
  else if 'a' ≤ c ∧ c ≤ 'f' then some (10 + (c.toNat - 97))
  else if 'A' ≤ c ∧ c ≤ 'F' then some (10 + (c.toNat - 65))
  else none

def octalValue (c : Char) : Option Nat := if '0' ≤ c ∧ c ≤ '7' then some (c.toNat - 48) else none

/-- Up to `size` digits of a number in the given base: the value, how many digits are missing, and
    what is left. -/
def readBase (base : Nat) (digit : Char → Option Nat) : Nat → Nat → Text → Nat × Nat × Text
  | 0, val, s => (val, 0, s)
  | size + 1, val, [] => (val, size + 1, [])
  | size + 1, val, c :: s =>
    match digit c with
    | some d => readBase base digit size (val * base + d) s
    | none => (val, size + 1, c :: s)

/-- The character that a letter behind a backslash stands for. -/
def simpleUnescape (c : Char) : Option Char :=
  match c with
  | '\\' => some '\\'
  | '\'' => some '\''
  | '"' => some '"'
  | '?' => some '?'
  | 'a' => some (Char.ofNat 7)
  | 'b' => some (Char.ofNat 8)
  | 'f' => some (Char.ofNat 12)
  | 'n' => some (Char.ofNat 10)
  | 'r' => some (Char.ofNat 13)
  | 't' => some (Char.ofNat 9)
  | 'v' => some (Char.ofNat 11)
  | _ => none

/-- What is behind a backslash: what is appended for it, and what is left. -/
def decodeEscape (special : Text) (c : Char) (s : Text) : Except InvalidArgument (Text × Text) :=
  match simpleUnescape c with
  | some d => .ok ([d], s)
  | none =>
    if c = 'u' ∨ c = 'U' then
      match readBase 16 hexValue (if c = 'u' then 4 else 8) 0 s with
      | (codePoint, 0, s) => do
        let u ← appendUTF8 codePoint
        return (u, s)
      | (_, _ + 1, _) => .error .tooFewHexDigits
    else if (octalValue c).isSome then
      match readBase 8 octalValue 3 0 (c :: s) with
      | (val, _, s) =>
        if val > 255 then .error (.octalOutOfRange val) else .ok ([Char.ofNat val], s)
    else if c = 'x' then
      match readBase 16 hexValue 2 0 s with
      | (val, missing, s) => if missing = 2 then .error .noHexDigit else .ok ([Char.ofNat val], s)
    else do
      let d ← checkChar c
      -- the backslash is kept before a character that is not special
      return (if c ∈ special then [d] else ['\\', d], s)

/-- `decodeChar`: what is appended for the first character or escape sequence, and what is left. -/
def decodeChar (special : Text) (c : Char) (s : Text) : Except InvalidArgument (Text × Text) :=
  if c ≠ '\\' then do
    let d ← checkChar c
    return ([d], s)
  else
    match s with
    | [] => .ok (['\\'], [])
    | d :: s => decodeEscape special d s

/-- The loop of `unescapeString`. The fuel bounds the number of bytes. -/
def unescapeLoop (special : Text) : Nat → Text → Except InvalidArgument Text
  | _, [] => .ok []
  | 0, _ :: _ => .ok []
  | fuel + 1, c :: s => do
    let (u, s) ← decodeChar special c s
    let result ← unescapeLoop special fuel s
    return u ++ result

/-- `unescapeString`, of the part of the string from `start` to `end`. -/
def unescapeString (s special : Text) : Except InvalidArgument Text := do
  checkSpecial special
  if '\\' ∉ s then s.mapM checkChar else unescapeLoop special s.length s

end Ice.Proxy
