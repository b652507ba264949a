import Ice.Proxy.StringUtil
import Ice.Misc.Extraction

/-!
# Stringified proxies

`RoutableReference::toString` (`cpp/src/Ice/Reference.cpp:153-254, 955-1005`) writes a proxy as a
string and `ReferenceFactory::create` (`cpp/src/Ice/ReferenceFactory.cpp:88-561`) reads it. The
parser goes through the string by positions; here it works on the text from the position on.
-/

namespace Ice.Proxy

open Misc

/-- What the exceptions say. -/
inductive ParseException where
  | noCharacters
  | mismatchedQuotes (option : Option Text)
  | noIdentity
  | charactersAfterIdentity
  | unescapedSlash
  | invalidIdentity (reason : InvalidArgument)
  | emptyName
  | expectedOption (option : Text)
  | noArgument (option : Char)
  | unexpectedArgument (option : Char) (argument : Text)
  | invalidFacet (reason : InvalidArgument)
  | malformedVersion
  | invalidMajor
  | invalidMinor
  | versionRange
  | unknownOption (option : Text)
  | invalidEndpoint (endpoint : Text)
  | missingAdapterId
  | mismatchedAdapterQuotes
  | trailingCharacters
  | invalidAdapterId (reason : InvalidArgument)
  | emptyAdapterId
deriving DecidableEq, Repr

/-! ## Identities -/

structure Identity where
  name : Text
  category : Text
deriving DecidableEq, Repr

/-- `static_cast<int>` of a size. -/
def castInt (n : Nat) : Int := Int.bmod n (2 ^ 32)

/-- The backslashes before a position, as the inner loop of `stringToIdentity` counts them. What
    stands before the position is given in reverse; its length is cast to `int`. -/
def escapes : Text → Nat
  | [] => 0
  | c :: before =>
    if 0 < castInt (before.length + 1) ∧ c = '\\' then escapes before + 1 else 0

/-- The loop of `stringToIdentity` that finds the separator. -/
def findSlash : Text → Text → Option Nat → Except ParseException (Option Nat)
  | _, [], slash => .ok slash
  | before, c :: s, slash =>
    if c = '/' ∧ escapes before.reverse % 2 = 0 then
      match slash with
      | none => findSlash (before ++ [c]) s (some before.length)
      | some _ => .error .unescapedSlash
    else findSlash (before ++ [c]) s slash

def checkIdentity (ident : Identity) : Except ParseException Unit :=
  if ident.name = [] then .error .emptyName else .ok ()

/-- The name and the category around the separator, if there is one. -/
def splitIdentity (s : Text) : Option Nat → Except ParseException Identity
  | none => do
    let name ← (unescapeString s ['/']).mapError .invalidIdentity
    return ⟨name, []⟩
  | some slash => do
    let category ← (unescapeString (s.take slash) ['/']).mapError .invalidIdentity
    let name ← (unescapeString (s.drop (slash + 1)) ['/']).mapError .invalidIdentity
    return ⟨name, category⟩

def stringToIdentity (s : Text) : Except ParseException Identity := do
  let slash ← findSlash [] s none
  let ident ← splitIdentity s slash
  checkIdentity ident
  return ident

def identityToString (ident : Identity) (mode : ToStringMode) : Except ParseException Text := do
  checkIdentity ident
  let name ← (escapeString ident.name ['/'] mode).mapError .invalidIdentity
  if ident.category = [] then return name
  else
    let category ← (escapeString ident.category ['/'] mode).mapError .invalidIdentity
    return category ++ '/' :: name

/-! ## References -/

/-- A protocol or encoding version. -/
structure Version where
  major : UInt8
  minor : UInt8
deriving DecidableEq, Repr

def Version.toText (v : Version) : Text :=
  Nat.toDigits 10 v.major.toNat ++ '.' :: Nat.toDigits 10 v.minor.toNat

def stringToMajorMinor (s : Text) : Except ParseException Version :=
  match s.dropWhile (· ≠ '.') with
  | [] => .error .malformedVersion
  | _ :: minStr =>
    match readInt (s.takeWhile (· ≠ '.')) with
    | some (majVersion, []) =>
      match readInt minStr with
      | some (minVersion, []) =>
        if majVersion < 1 ∨ majVersion > 255 ∨ minVersion < 0 ∨ minVersion > 255 then
          .error .versionRange
        else .ok ⟨UInt8.ofNat majVersion.toNat, UInt8.ofNat minVersion.toNat⟩
      | _ => .error .invalidMinor
    | _ => .error .invalidMajor

inductive Mode where
  | twoway
  | oneway
  | batchOneway
  | datagram
  | batchDatagram
deriving DecidableEq, Repr

/-- `RoutableReference`, as far as its string says it. There is no flag for secure proxies in a
    reference. -/
structure Reference (ε : Type) where
  identity : Identity
  facet : Text
  mode : Mode
  protocol : Version
  encoding : Version
  endpoints : List ε
  adapterId : Text
deriving DecidableEq, Repr

def protocol10 : Version := ⟨1, 0⟩

def encoding11 : Version := ⟨1, 1⟩

/-! ## Writing -/

/-- A string that holds a separator of the parser is put into quotes. -/
def quote (s : Text) : Text :=
  if s.any fun c => c ∈ [' ', ':', '@'] then '"' :: (s ++ ['"']) else s

def Mode.toText : Mode → Text
  | twoway => []
  | oneway => " -o".toList
  | batchOneway => " -O".toList
  | datagram => " -d".toList
  | batchDatagram => " -D".toList

def protocolText (protocol : Version) : Text :=
  if protocol ≠ protocol10 then " -p ".toList ++ protocol.toText else []

def encodingText (defaultEncoding encoding : Version) : Text :=
  if encoding ≠ encoding11 ∨ defaultEncoding ≠ encoding11 then " -e ".toList ++ encoding.toText
  else []

section

variable {ε : Type}

/-- `Reference::toString`. -/
def Reference.baseToString (r : Reference ε) (toStringMode : ToStringMode)
    (defaultEncoding : Version) :
    Except ParseException Text := do
  let id ← identityToString r.identity toStringMode
  let facet ←
    if r.facet = [] then pure []
    else do
      let fs ← (escapeString r.facet [] toStringMode).mapError .invalidFacet
      pure (" -f ".toList ++ quote fs)
  return quote id ++ (facet ++ (r.mode.toText ++ (protocolText r.protocol ++
    encodingText defaultEncoding r.encoding)))

/-- `RoutableReference::toString`, where `endpointToString` is `EndpointI::toString`. -/
def Reference.toString (endpointToString : ε → Text) (r : Reference ε) (toStringMode : ToStringMode)
    (defaultEncoding : Version) : Except ParseException Text := do
  let result ← r.baseToString toStringMode defaultEncoding
  if r.endpoints ≠ [] then
    return result ++ r.endpoints.flatMap fun endpoint =>
      if endpointToString endpoint = [] then [] else ':' :: endpointToString endpoint
  else if r.adapterId ≠ [] then do
    let a ← (escapeString r.adapterId [] toStringMode).mapError .invalidAdapterId
    return result ++ (" @ ".toList ++ quote a)
  else return result

end

/-! ## Reading -/

def isWhite (c : Char) : Bool := c ∈ [' ', '\t', '\r', '\n']

def isWhiteOrSeparator (c : Char) : Bool := c ∈ [' ', '\t', '\r', '\n', ':', '@']

/-- The loop of `checkQuote`: the text up to the next quote that is not behind a backslash, and what
    comes behind it. -/
def findClosing (quoteChar : Char) : Char → Text → Option (Text × Text)
  | _, [] => none
  | last, c :: s =>
    if c = quoteChar ∧ last ≠ '\\' then some ([], s)
    else (findClosing quoteChar c s).map fun (content, rest) => (c :: content, rest)

/-- A component, which may be in single or double quotation marks, and what comes behind it. Without
    quotes it goes up to a character that stops it. The result is `none` for mismatched quotes,
    `checkQuote` decides. -/
def component (stops : Char → Bool) (s : Text) : Option (Text × Text) :=
  match s with
  | [] => some ([], [])
  | c :: rest =>
    if c = '"' ∨ c = '\'' then findClosing c c rest
    else some (s.takeWhile (!stops ·), s.dropWhile (!stops ·))

/-- What the options of a proxy string set. -/
structure Options where
  facet : Text := []
  mode : Mode := .twoway
  encoding : Version
  protocol : Version := protocol10
deriving DecidableEq, Repr

/-- An option that has no argument. -/
def flag (option : Char) (argument : Text) (o : Options) : Except ParseException Options :=
  if argument ≠ [] then .error (.unexpectedArgument option argument) else .ok o

/-- The `switch` over the options. -/
def Options.set (o : Options) (option : Char) (argument : Text) : Except ParseException Options :=
  match option with
  | 'f' =>
    if argument = [] then .error (.noArgument 'f')
    else do
      let facet ← (unescapeString argument []).mapError .invalidFacet
      return { o with facet }
  | 't' => flag 't' argument { o with mode := .twoway }
  | 'o' => flag 'o' argument { o with mode := .oneway }
  | 'O' => flag 'O' argument { o with mode := .batchOneway }
  | 'd' => flag 'd' argument { o with mode := .datagram }
  | 'D' => flag 'D' argument { o with mode := .batchDatagram }
  -- ignored, kept for backwards compatibility
  | 's' => flag 's' argument o
  | 'e' =>
    if argument = [] then .error (.noArgument 'e')
    else do
      let encoding ← stringToMajorMinor argument
      return { o with encoding }
  | 'p' =>
    if argument = [] then .error (.noArgument 'p')
    else do
      let protocol ← stringToMajorMinor argument
      return { o with protocol }
  | c => .error (.unknownOption ['-', c])

/-- The argument of an option, if what comes behind the option can be one. -/
def optionArgument (option s : Text) : Except ParseException (Text × Text) :=
  match s.dropWhile isWhite with
  | [] => .ok ([], s)
  | c :: rest =>
    if c ≠ '@' ∧ c ≠ ':' ∧ c ≠ '-' then
      match component isWhiteOrSeparator (c :: rest) with
      | none => .error (.mismatchedQuotes (some option))
      | some result => .ok result
    else .ok ([], s)

/-- The loop over the options, up to the end of the string or a separator. The fuel bounds the
    number of options. -/
def parseOptions : Nat → Options → Text → Except ParseException (Options × Text)
  | 0, o, s => .ok (o, s)
  | fuel + 1, o, s =>
    match s.dropWhile isWhite with
    | [] => .ok (o, [])
    | c :: rest =>
      if c = ':' ∨ c = '@' then .ok (o, c :: rest)
      else
        match (c :: rest).takeWhile (!isWhiteOrSeparator ·) with
        | ['-', option] => do
          let (argument, s) ←
            optionArgument ['-', option] ((c :: rest).dropWhile (!isWhiteOrSeparator ·))
          let o ← o.set option argument
          parseOptions fuel o s
        | option => .error (.expectedOption option)

/-- Whether position `i` is between two quotes, given the positions of the quotes. -/
def isQuoted (i : Nat) : List Nat → Bool
  | opening :: closing :: quotes =>
    if i < opening then false else if i < closing then true else isQuoted i quotes
  | _ => false

/-- The text of an endpoint: up to the first colon that is not quoted. -/
def endpointLength (s : Text) : Nat :=
  let quotes := (List.range s.length).filter fun i => s[i]? = some '"'
  let colons := (List.range s.length).filter fun i => s[i]? = some ':'
  (colons.find? fun i => !isQuoted i quotes).getD s.length

/-- The loop over the endpoints, from a colon on: those that are known, and the strings of the
    others. -/
def parseEndpoints {ε : Type} (factory : Text → Except ParseException (Option ε)) :
    Nat → Text → Except ParseException (List ε × List Text)
  | 0, _ => .ok ([], [])
  | _ + 1, [] => .ok ([], [])
  | fuel + 1, _ :: s => do
    let es := s.take (endpointLength s)
    let endpoint ← factory es
    let (endpoints, unknown) ← parseEndpoints factory fuel (s.drop (endpointLength s))
    match endpoint with
    | some endpoint => return (endpoint :: endpoints, unknown)
    | none => return (endpoints, es :: unknown)

/-- The adapter id behind the `@`. -/
def parseAdapter (s : Text) : Except ParseException Text := do
  let s := s.dropWhile isWhite
  if s = [] then .error .missingAdapterId
  else
    match component isWhite s with
    | none => .error .mismatchedAdapterQuotes
    | some (adapterstr, rest) =>
      if rest.dropWhile isWhite ≠ [] then .error .trailingCharacters
      else do
        let adapter ← (unescapeString adapterstr []).mapError .invalidAdapterId
        if adapter = [] then .error .emptyAdapterId else return adapter

section

variable {ε : Type}

/-- What comes behind the options: nothing, endpoints or an adapter id. -/
def parseTarget (factory : Text → Except ParseException (Option ε)) (identity : Identity)
    (o : Options) (s : Text) : Except ParseException (Reference ε) :=
  match s with
  | [] => .ok ⟨identity, o.facet, o.mode, o.protocol, o.encoding, [], []⟩
  | ':' :: _ => do
    let (endpoints, unknown) ← parseEndpoints factory (s.length + 1) s
    if endpoints = [] then .error (.invalidEndpoint (unknown.headD []))
    else return ⟨identity, o.facet, o.mode, o.protocol, o.encoding, endpoints, []⟩
  | _ :: rest => do
    let adapter ← parseAdapter rest
    return ⟨identity, o.facet, o.mode, o.protocol, o.encoding, [], adapter⟩

/-- `ReferenceFactory::create` for a string. The result is `none` for the null proxy. `factory` is
    `EndpointFactoryManager::create`. -/
def create (factory : Text → Except ParseException (Option ε)) (defaultEncoding : Version)
    (str : Text) :
    Except ParseException (Option (Reference ε)) :=
  if str = [] then .ok none
  else
    let s := str.dropWhile isWhite
    if s = [] then .error .noCharacters
    else
      match component isWhiteOrSeparator s with
      | none => .error (.mismatchedQuotes none)
      | some (idstr, rest) =>
        if idstr = [] then
          -- an empty identity in quotes is that of the null proxy
          if rest = s then .error .noIdentity
          else if rest.dropWhile isWhite ≠ [] then .error .charactersAfterIdentity
          else .ok none
        else do
          let ident ← stringToIdentity idstr
          let (o, s) ← parseOptions (rest.length + 1) { encoding := defaultEncoding } rest
          let r ← parseTarget factory ident o s
          return some r

end

end Ice.Proxy
