import Ice.Misc.Scan

/-!
# Distinguished names in RFC 2253 form

The parser of `cpp/src/Ice/SSL/RFC2253.cpp`. A position in the text is modelled by the text from
that position on. Parsing keeps the escapes of a value; `unescape` removes them later.
-/

namespace Ice.SSL

open Ice.Misc

/-- A `std::string` of bytes. -/
abbrev ByteString := List UInt8

/-- What a `ParseException` of the parser says. -/
inductive ParseException where
  /-- `negation symbol '!' must appear at start of list` -/
  | negation
  /-- `expected ',' or ';' at` the rest of the text -/
  | expectedSeparator (rest : ByteString)
  /-- `unescape: missing "` -/
  | missingQuote
  /-- `unescape: invalid escape sequence` -/
  | invalidEscape
  /-- `unescape: invalid hex pair` -/
  | invalidHexPair
  /-- `invalid attribute type/value pair (unexpected end of data)` -/
  | pairEnd
  /-- `invalid attribute type/value pair (missing =)` -/
  | missingEqual
  /-- `invalid attribute type (unexpected end of data)` -/
  | typeEnd
  /-- `invalid attribute type (missing digit after '.')` -/
  | missingDigit
  /-- `invalid attribute type` -/
  | invalidType
  /-- `invalid attribute value (unexpected end of data)` -/
  | valueEnd
  /-- `invalid escape format (unexpected end of data)` -/
  | escapeEnd
  /-- `invalid hex format` -/
  | invalidHex
deriving DecidableEq, Repr

/-- The bytes of `,=+<>#;`. -/
def special : List UInt8 := [44, 61, 43, 60, 62, 35, 59]

/-- The byte is a hexadecimal digit (`hexvalid`). -/
def isHex (c : UInt8) : Bool := (48 ≤ c && c ≤ 57) || (97 ≤ c && c ≤ 102) || (65 ≤ c && c ≤ 70)

def isDigit (c : UInt8) : Bool := 48 ≤ c && c ≤ 57

def isAlpha (c : UInt8) : Bool := (97 ≤ c && c ≤ 122) || (65 ≤ c && c ≤ 90)

/-- The byte stands for itself after a backslash: a special character, `\` or `"`. -/
def isEscapable (c : UInt8) : Bool := special.contains c || c == 92 || c == 34

def eatWhite (data : ByteString) : ByteString := data.dropWhile (· == 32)

def parseHexPair (allowEmpty : Bool) : ByteString → Except ParseException (ByteString × ByteString)
  | [] => if allowEmpty then .ok ([], []) else .error .invalidHex
  | c :: rest =>
    if isHex c then
      match rest with
      | d :: rest => if isHex d then .ok ([c, d], rest) else .error .invalidHex
      | [] => .error .invalidHex
    else if allowEmpty then .ok ([], c :: rest) else .error .invalidHex

/-- `parsePair`, after the backslash. A hex pair comes back without the backslash. -/
def parsePair : ByteString → Except ParseException (ByteString × ByteString)
  | [] => .error .escapeEnd
  | c :: rest => if isEscapable c then .ok ([92, c], rest) else parseHexPair false (c :: rest)

/-- One hex pair of `#` hexstring. -/
def hexItem (data : ByteString) : Except ParseException (Option (ByteString × ByteString)) :=
  match parseHexPair true data with
  | .error e => .error e
  | .ok ([], _) => .ok none
  | .ok r => .ok (some r)

/-- One step of the loop over a quoted value, up to the closing quote. -/
def quotedItem : ByteString → Except ParseException (Option (ByteString × ByteString))
  | [] => .error .valueEnd
  | c :: rest =>
    if c = 34 then .ok none
    else if c = 92 then (parsePair rest).map some
    else .ok (some ([c], rest))

/-- One step of the loop over a value that is neither quoted nor a hexstring. -/
def stringItem : ByteString → Except ParseException (Option (ByteString × ByteString))
  | [] => .ok none
  | c :: rest =>
    if c = 92 then (parsePair rest).map some
    else if !special.contains c && c != 34 then .ok (some ([c], rest))
    else .ok none

def parseAttributeValue (data : ByteString) : Except ParseException (ByteString × ByteString) :=
  match eatWhite data with
  | [] => .ok ([], [])
  | c :: rest =>
    if c = 35 then do
      let (digits, rest) ← many hexItem rest.length rest
      return (c :: digits, rest)
    else if c = 34 then do
      let (chars, rest) ← many quotedItem rest.length rest
      match rest with
      | [] => .error .valueEnd
      | q :: rest => return (c :: chars ++ [q], rest)
    else many stringItem (rest.length + 1) (c :: rest)

/-- The digits and dots of an object identifier. -/
def parseOid : ByteString → Except ParseException (ByteString × ByteString)
  | [] => .ok ([], [])
  | c :: rest =>
    if isDigit c then do
      let (oid, rest) ← parseOid rest
      return (c :: oid, rest)
    else if c = 46 then
      match rest.head? with
      | some d =>
        if isDigit d then do
          let (oid, rest) ← parseOid rest
          return (c :: oid, rest)
        else .error .missingDigit
      | none => .ok ([c], [])
    else .ok ([], c :: rest)

/-- A `keychar`: a letter, a digit or `-`. -/
def isKeychar (c : UInt8) : Bool := isAlpha c || isDigit c || c == 45

/-- `parseAttributeType`. The bytes of `oid.` and `OID.` are written out. -/
def parseAttributeType (data : ByteString) : Except ParseException (ByteString × ByteString) :=
  match eatWhite data with
  | [] => .error .typeEnd
  | c :: rest =>
    if isDigit c then parseOid (c :: rest)
    else if (c :: rest).take 4 = [111, 105, 100, 46] ∨ (c :: rest).take 4 = [79, 73, 68, 46] then do
      let (oid, rest') ← parseOid ((c :: rest).drop 4)
      return ((c :: rest).take 4 ++ oid, rest')
    else if isAlpha c then .ok (c :: rest.takeWhile isKeychar, rest.dropWhile isKeychar)
    else .error .invalidType

def parseAttributeTypeAndValue (data : ByteString) :
    Except ParseException ((ByteString × ByteString) × ByteString) := do
  let (type, rest) ← parseAttributeType data
  match eatWhite rest with
  | [] => .error .pairEnd
  | c :: rest =>
    if c = 61 then
      let (value, rest) ← parseAttributeValue rest
      return ((type, value), rest)
    else .error .missingEqual

/-- The loop of `parseNameComponent`: the further attributes are appended to the value of the
    first. -/
def joinAttributes : Nat → ByteString × ByteString → ByteString →
    Except ParseException ((ByteString × ByteString) × ByteString)
  | 0, final, data => .ok (final, data)
  | fuel + 1, final, data =>
    match eatWhite data with
    | 43 :: rest => do
      let (p, rest) ← parseAttributeTypeAndValue rest
      joinAttributes fuel (final.1, final.2 ++ [43] ++ p.1 ++ [61] ++ p.2) rest
    | data => .ok (final, data)

def parseNameComponent (data : ByteString) :
    Except ParseException ((ByteString × ByteString) × ByteString) := do
  let (final, rest) ← parseAttributeTypeAndValue data
  joinAttributes rest.length final rest

/-- The list of `RDNSeq`: pairs of a type and a value with its escapes. -/
abbrev RDNSeq := List (ByteString × ByteString)

/-- The loop of `RFC2253::parseStrict`. -/
def parseStrictLoop : Nat → ByteString → Except ParseException RDNSeq
  | 0, _ => .ok []
  | fuel + 1, data =>
    if data.isEmpty then .ok []
    else do
      let (component, rest) ← parseNameComponent data
      match eatWhite rest with
      | [] => return [component]
      | c :: rest =>
        if c = 44 ∨ c = 59 then
          let components ← parseStrictLoop fuel rest
          return component :: components
        else .error (.expectedSeparator (c :: rest))

/-- `RFC2253::parseStrict`. -/
def parseStrict (data : ByteString) : Except ParseException RDNSeq :=
  parseStrictLoop data.length data

/-- `RFC2253::RDNEntry`: the attributes of one entry, and whether it starts with `!`. -/
structure RDNEntry where
  rdn : RDNSeq := []
  negate : Bool := false
deriving DecidableEq, Repr

/-- The loop of `RFC2253::parse`, where `current` is the entry that is being read. -/
def parseLoop : Nat → RDNEntry → ByteString → Except ParseException (List RDNEntry)
  | 0, _, _ => .ok []
  | fuel + 1, current, data =>
    if data.isEmpty then .ok (if current.rdn.isEmpty then [] else [current])
    else do
      let (current, data) ←
        match eatWhite data with
        | 33 :: rest =>
          if current.rdn.isEmpty then Except.ok ({ current with negate := true }, rest)
          else Except.error ParseException.negation
        | data => Except.ok (current, data)
      let (component, rest) ← parseNameComponent data
      let current := { current with rdn := current.rdn ++ [component] }
      match eatWhite rest with
      | [] => return [current]
      | c :: rest =>
        if c = 44 then parseLoop fuel current rest
        else if c = 59 then
          let entries ← parseLoop fuel {} rest
          return current :: entries
        else .error (.expectedSeparator (c :: rest))

/-- `RFC2253::parse`. -/
def parse (data : ByteString) : Except ParseException (List RDNEntry) :=
  parseLoop (data.length + 1) {} data

def hexToInt (c : UInt8) : Except ParseException UInt8 :=
  if 48 ≤ c && c ≤ 57 then .ok (c - 48)
  else if 97 ≤ c && c ≤ 102 then .ok (10 + (c - 97))
  else if 65 ≤ c && c ≤ 70 then .ok (10 + (c - 65))
  else .error .invalidHexPair

/-- `unescapeHex` at the front of the text. -/
def unescapeHex : ByteString → Except ParseException (UInt8 × ByteString)
  | c :: d :: rest => do
    let high ← hexToInt c
    let low ← hexToInt d
    return (high * 16 + low, rest)
  | _ => .error .invalidHexPair

/-- One byte of a hexstring. -/
def unescapeHexItem : ByteString → Except ParseException (Option (ByteString × ByteString))
  | [] => .ok none
  | c :: rest => (unescapeHex (c :: rest)).map fun r => some ([r.1], r.2)

/-- One byte of a value that is neither quoted nor a hexstring. -/
def unescapeItem : ByteString → Except ParseException (Option (ByteString × ByteString))
  | [] => .ok none
  | c :: rest =>
    if c ≠ 92 then .ok (some ([c], rest))
    else
      match rest with
      | [] => .error .invalidEscape
      | d :: rest =>
        if isEscapable d then .ok (some ([d], rest))
        else (unescapeHex (d :: rest)).map fun r => some ([r.1], r.2)

/-- `RFC2253::unescape`. -/
def unescape (data : ByteString) : Except ParseException ByteString :=
  match data with
  | [] => .ok []
  | c :: rest =>
    if c = 34 then
      -- a value that is a single `"` starts and ends with it: `substr(1, size - 2)` is empty
      if data.getLast? ≠ some 34 then .error .missingQuote else .ok rest.dropLast
    else if c = 35 then (many unescapeHexItem rest.length rest).map Prod.fst
    else (many unescapeItem data.length data).map Prod.fst

end Ice.SSL
