import Ice.Slice.Scanner

/-!
# String literals in generated code

`toStringLiteral` (`cpp/src/Slice/StringLiteralUtil.cpp`), with which the compilers write string
constants, and what a Swift compiler reads in them. A function that fails an assertion or throws has
no result.
-/

namespace Ice.Slice

open Ice.Proxy (Text hexValue octalValue hexDigits octal utf8)

inductive EscapeMode where
  | ucn
  | octal
  | shortUCN
  | matlab
  | ec6UCN
deriving DecidableEq, Repr

/-- The last format used for an escape. -/
inductive Format where
  | noFormat
  | octalFormat
  | hexFormat
deriving DecidableEq, Repr

/-- `toUTF32` and `fromUTF32`, which leave the work to the C++ library: valid UTF-8 is decoded, and
    Unicode scalar values only come from their own encoding. -/
structure Converter where
  toUTF32 : Text → Option (List Nat)
  fromUTF32 : List Nat → Option Text
  bounded : ∀ bytes u32buffer, toUTF32 bytes = some u32buffer → ∀ codePoint ∈ u32buffer,
    codePoint < 2 ^ 32
  decode : ∀ cs : List Char, toUTF32 (cs.flatMap utf8) = some (cs.map Char.toNat)
  encode : ∀ (bytes : Text) (cs : List Char), toUTF32 bytes = some (cs.map Char.toNat) →
    bytes = cs.flatMap utf8

/-- `StringLiteralGenerator`, without its last format. -/
structure StringLiteralGenerator where
  nonPrintableEscaped : Text
  printableEscaped : Text
  escapeMode : EscapeMode
  cutOff : Nat
  converter : Converter

/-- `os << hex << i` of a number of 32 bits. -/
def hex (i : Nat) : Text :=
  match (hexDigits i 8).dropWhile (· = '0') with
  | [] => ['0']
  | digits => digits

/-- The escape of a character that is not printable. -/
def nonPrintableEscape (c : Char) : Option Text :=
  match c.toNat with
  | 7 => some ['\\', 'a']
  | 8 => some ['\\', 'b']
  | 12 => some ['\\', 'f']
  | 10 => some ['\\', 'n']
  | 13 => some ['\\', 'r']
  | 9 => some ['\\', 't']
  | 11 => some ['\\', 'v']
  | 0 => some ['\\', '0']
  | 32 => some ['\\', 's']
  | 27 => some ['\\', 'e']
  | _ => none

/-- `static_cast<char>`. -/
def toChar (v : Int) : Char := Char.ofNat (v % 256).toNat

namespace StringLiteralGenerator

variable (g : StringLiteralGenerator)

/-- `_shortUCNPrefix`. -/
def shortUCN : Text := if g.escapeMode = .matlab then ['\\', 'x'] else ['\\', 'u']

def escapeASCIIChar (lastFormat : Format) (c : Char) : Option (Text × Format) :=
  if 128 ≤ c.toNat then none
  else if c ∈ g.nonPrintableEscaped then
    match nonPrintableEscape c with
    | some result => some (result, .noFormat)
    | none => none
  else if c ∈ g.printableEscaped then some (['\\', c], .noFormat)
  else if g.escapeMode = .matlab ∧ c = '\'' then some (['\'', '\''], .noFormat)
  else if g.escapeMode = .matlab ∧ c = '%' then some (['%', '%'], .noFormat)
  else if 32 ≤ c.toNat ∧ c.toNat ≤ 126 then
    -- the Matlab parser goes on with the digits of an escape
    if g.escapeMode = .matlab ∧ (lastFormat = .octalFormat ∧ (octalValue c).isSome ∨
        lastFormat = .hexFormat ∧ (hexValue c).isSome) then
        some ('\\' :: octal c.toNat, .octalFormat)
    else some ([c], .noFormat)
  else if c.toNat < g.cutOff ∨ g.escapeMode = .octal then some ('\\' :: octal c.toNat, .octalFormat)
  else if g.escapeMode = .ec6UCN then
    some ('\\' :: 'u' :: '{' :: (hexDigits c.toNat 4 ++ ['}']), .hexFormat)
  else some (g.shortUCN ++ hexDigits c.toNat 4, .hexFormat)

def escapeCodePoint (format : Format) (codePoint : Nat) : Option (Text × Format) :=
  if codePoint < 128 then g.escapeASCIIChar format (Char.ofNat codePoint)
  else if g.escapeMode = .octal then
    match g.converter.fromUTF32 [codePoint] with
    | some u8buffer => some (u8buffer.flatMap fun q => '\\' :: octal q.toNat, .octalFormat)
    | none => none
  else if g.escapeMode = .ec6UCN then some ('\\' :: 'u' :: '{' :: (hex codePoint ++ ['}']), format)
  else if codePoint < g.cutOff then some ('\\' :: octal codePoint, .octalFormat)
  else if codePoint ≤ 0xFFFF then some (g.shortUCN ++ hexDigits codePoint 4, .hexFormat)
  else if g.escapeMode = .shortUCN ∨ g.escapeMode = .matlab then
    let highSurrogate := (codePoint - 0x10000) / 0x400 + 0xD800
    let lowSurrogate := (codePoint - 0x10000) % 0x400 + 0xDC00
    some (g.shortUCN ++ hexDigits highSurrogate 4 ++ g.shortUCN ++ hexDigits lowSurrogate 4,
      .hexFormat)
  else some ('\\' :: 'U' :: hexDigits codePoint 8, format)

/-- The loop of `flushU8Buffer`. -/
def escapeCodePoints (format : Format) : List Nat → Option (Text × Format)
  | [] => some ([], format)
  | codePoint :: u32buffer => do
    let (first, format) ← g.escapeCodePoint format codePoint
    let (rest, format) ← escapeCodePoints format u32buffer
    return (first ++ rest, format)

def flushU8Buffer (format : Format) (u8buffer : Text) : Option (Text × Format) :=
  if u8buffer = [] then some ([], format)
  else do
    let u32buffer ← g.converter.toUTF32 u8buffer
    g.escapeCodePoints format u32buffer

/-- The escape of the universal character name with the letter `c` and these digits, whose value is
    `v`. -/
def universalEscape (format : Format) (c : Char) (digits : Text) (v : Int) :
    Option (Text × Format) :=
  if g.escapeMode = .octal then g.escapeCodePoint format (v % 2 ^ 32).toNat
  else if v < 128 then g.escapeASCIIChar format (toChar v)
  else if g.escapeMode = .ucn then some ('\\' :: c :: digits, format)
  else if c = 'u' ∧ g.escapeMode ≠ .ec6UCN then
    some ((if g.escapeMode = .matlab then ['\\', 'x'] else ['\\', 'u']) ++ digits, .hexFormat)
  else g.escapeCodePoint format v.toNat

/-- What is written for a backslash that is followed by `value`, and what is left of it. -/
def backslashEscape (format : Format) (value : Text) : Option (Text × Format × Text) :=
  match value with
  | [] => some (['\\', '\\'], format, [])
  | c :: value =>
    if c = '\\' then some (['\\', '\\'], .noFormat, value)
    else if c = 'u' ∨ c = 'U' then
      let codePointStr := value.take (universalSize c)
      if codePointStr.length = universalSize c then do
        let v ← stoll 16 codePointStr
        let (result, format) ← g.universalEscape format c codePointStr v
        return (result, format, value.drop (universalSize c))
      else none
    else do
      let (result, format) ← g.escapeASCIIChar .noFormat c
      return ('\\' :: '\\' :: result, format, value)

/-- What is written for an ASCII character that is followed by `value`, and what is left of it. -/
def escapeNext (format : Format) (c : Char) (value : Text) : Option (Text × Format × Text) :=
  if c = '\\' then g.backslashEscape format value
  else do
    let (result, format) ← g.escapeASCIIChar format c
    return (result, format, value)

/-- The loops of `toStringLiteral`. The fuel bounds the number of bytes. -/
def literalLoop : Nat → Format → Text → Text → Option Text
  | _, format, u8buffer, [] => (g.flushU8Buffer format u8buffer).map Prod.fst
  | 0, _, _, _ :: _ => none
  | fuel + 1, format, u8buffer, c :: value =>
    if 128 ≤ c.toNat then
      if g.escapeMode = .octal then
        ('\\' :: octal c.toNat ++ ·) <$> literalLoop fuel format u8buffer value
      else literalLoop fuel format (u8buffer ++ [c]) value
    else do
      let (flushed, format) ← g.flushU8Buffer format u8buffer
      let (result, format, value) ← g.escapeNext format c value
      let rest ← literalLoop fuel format [] value
      return flushed ++ (result ++ rest)

end StringLiteralGenerator

def toStringLiteral (converter : Converter) (value nonPrintableEscaped printableEscaped : Text)
    (escapeMode : EscapeMode) (cutOff : Nat) : Option Text :=
  let g : StringLiteralGenerator :=
    { nonPrintableEscaped
      printableEscaped :=
        printableEscaped ++ ['\\'] ++ if escapeMode = .matlab then [] else ['"']
      escapeMode, cutOff, converter }
  g.literalLoop value.length .noFormat [] value

/-- `writeConstantValue` for the Swift mapping and a string. -/
def writeConstantValue (converter : Converter) (value : Text) : Option Text := do
  let literal ← toStringLiteral converter value ['\n', '\r', '\t'] [] .ec6UCN 0
  return '"' :: literal ++ ['"']

/-! ## Swift -/

/-- What a Swift compiler has read of a character in a string literal. -/
inductive SwiftState where
  | plain
  /-- a backslash -/
  | escape
  /-- a backslash and `u` -/
  | opening
  /-- the digits of `\u{n}`: their value and how many there are -/
  | digits (value count : Nat)

/-- The escape sequences of one character. -/
def swiftEscape (c : Char) : Option Char :=
  match c with
  | '0' => some (Char.ofNat 0)
  | '\\' => some '\\'
  | 't' => some '\t'
  | 'n' => some '\n'
  | 'r' => some '\r'
  | '"' => some '"'
  | '\'' => some '\''
  | _ => none

/-- The characters of a Swift string literal behind its opening quote. -/
def swiftCharacters : SwiftState → Text → Option (List Char)
  | _, [] => none
  | .plain, c :: s =>
    if c = '"' then if s = [] then some [] else none
    else if c = '\\' then swiftCharacters .escape s
    else if c = '\n' ∨ c = '\r' then none
    else (c :: ·) <$> swiftCharacters .plain s
  | .escape, c :: s =>
    match swiftEscape c with
    | some d => (d :: ·) <$> swiftCharacters .plain s
    | none => if c = 'u' then swiftCharacters .opening s else none
  | .opening, c :: s => if c = '{' then swiftCharacters (.digits 0 0) s else none
  | .digits value count, c :: s =>
    if c = '}' then
      if 1 ≤ count ∧ count ≤ 8 ∧ value.isValidChar then
        (Char.ofNat value :: ·) <$> swiftCharacters .plain s
      else none
    else
      match hexValue c with
      | some d => swiftCharacters (.digits (value * 16 + d) (count + 1)) s
      | none => none

/-- The Unicode scalar values that a Swift string literal denotes. -/
def swiftLiteral (s : Text) : Option (List Char) :=
  match s with
  | '"' :: s => swiftCharacters .plain s
  | _ => none

end Ice.Slice
