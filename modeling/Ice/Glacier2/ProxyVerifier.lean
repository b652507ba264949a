import Ice.Misc.Search
import Ice.Misc.Extraction

/-!
# The address filters of Glacier2

`Glacier2.Filter.Address.Accept` and `Reject` hold entries such as `host[1-3,10].*.com:[4061-4063]`.
`parseProperty` (`cpp/src/Glacier2/ProxyVerifier.cpp:790-979`) makes a rule of every entry, a
sequence of matchers that have to match the host of an endpoint one behind the other. `matchAddress`
goes back to the matchers behind a wildcard, which can match at several positions.
-/

namespace Ice.Glacier2

open Misc

abbrev Text := List Char

/-- The exceptions of the parser. -/
inductive InvalidArgument where
  | expectedNumber
  | unterminatedRange
  | reversedRange
  | expectedComma
  | trailingCharacter
  | unclosedGroup
  | noAddress
  | wildcardInGroup
  | openInGroup
  | closeWithoutOpen
  | emptyGroup
deriving DecidableEq, Repr

/-- `what()`. -/
def InvalidArgument.what : InvalidArgument → String
  | expectedNumber => "expected number"
  | unterminatedRange => "Unterminated range"
  | reversedRange => "range lower bound is greater than its upper bound"
  | expectedComma => "expected comma separator"
  | trailingCharacter => "unexpected trailing character"
  | unclosedGroup => "unclosed group"
  | noAddress => "expected address information before ':'"
  | wildcardInGroup => "wildcards not permitted in groups"
  | openInGroup => "unexpected '[' in group"
  | closeWithoutOpen => "group close without group start"
  | emptyGroup => "empty group"

structure Range where
  start : Int
  stop : Int
deriving DecidableEq, Repr

/-- What `parseGroup` reads. -/
structure Group where
  values : List Int := []
  ranges : List Range := []
deriving DecidableEq, Repr

/-- The loop of `parseGroup`. The fuel bounds the number of items; every item takes a character. -/
def parseGroupLoop : Nat → Text → Group → Except InvalidArgument Group
  | 0, _, g => .ok g
  | fuel + 1, istr, g =>
    match readInt istr with
    | none => .error .expectedNumber
    | some (value, istr) =>
      match istr.dropWhile isSpace with
      | [] => .ok { g with values := g.values ++ [value] }
      | ',' :: istr => parseGroupLoop fuel istr { g with values := g.values ++ [value] }
      | '-' :: istr =>
        if istr.dropWhile isSpace = [] then .error .unterminatedRange
        else
          match readInt istr with
          | none => .error .expectedNumber
          | some (stop, istr) =>
            if stop < value then .error .reversedRange
            else
              match istr.dropWhile isSpace with
              | [] => .ok { g with ranges := g.ranges ++ [⟨value, stop⟩] }
              | ',' :: istr =>
                parseGroupLoop fuel istr { g with ranges := g.ranges ++ [⟨value, stop⟩] }
              | _ :: _ => .error .expectedComma
      | _ :: _ => .error .trailingCharacter

def parseGroup (parameter : Text) : Except InvalidArgument Group :=
  parseGroupLoop (parameter.length + 1) parameter {}

/-! ## Matchers -/

/-- The first occurrence of a text. -/
def findText (criteria : Text) : Text → Option Nat
  | [] => if criteria = [] then some 0 else none
  | c :: s => if criteria <+: c :: s then some 0 else (findText criteria s).map (· + 1)

/-- `space.find(criteria, pos)`. -/
def find (criteria space : Text) (pos : Nat) : Option Nat :=
  (findText criteria (space.drop pos)).map (pos + ·)

/-- `space.find_first_of` and `space.find_first_not_of`. -/
def findFirst (p : Char → Bool) (space : Text) (pos : Nat) : Option Nat :=
  ((space.drop pos).findIdx? p).map (pos + ·)

/-- The comparisons at the end of `MatchesNumber::match`. -/
def Group.contains (g : Group) (val : Int) : Bool :=
  g.values.any (val == ·) || g.ranges.any fun r => r.start ≤ val && val ≤ r.stop

/-- `MatchesNumber::match`. The position also moves when the number is none of the group's. -/
def Group.match (g : Group) (space : Text) (pos : Nat) : Bool × Nat :=
  match readInt (space.drop pos) with
  | none => (false, pos)
  | some (val, istr) =>
    (g.contains val,
      if istr = [] then space.length else pos + ((space.drop pos).length - istr.length))

/-- The loop of `ContainsNumberMatch::match`. The fuel bounds the number of digit runs. -/
def Group.search (g : Group) (space : Text) : Nat → Nat → Option Nat
  | 0, _ => none
  | fuel + 1, pos =>
    match findFirst Char.isDigit space pos with
    | none => none
    | some pos =>
      match g.match space pos with
      | (true, pos) => some pos
      | (false, pos) =>
        match findFirst (!·.isDigit) space pos with
        | none => none
        | some pos => g.search space fuel pos

/-- The classes derived from `AddressMatcher`. -/
inductive AddressMatcher where
  | matchesAny
  | startsWithString (criteria : Text)
  | endsWithString (criteria : Text)
  | matchesString (criteria : Text)
  | containsString (criteria : Text)
  | matchesNumber (group : Group)
  | containsNumberMatch (group : Group)
deriving DecidableEq, Repr

namespace AddressMatcher

/-- `match`: the position behind the match. -/
def «match» (space : Text) (pos : Nat) : AddressMatcher → Option Nat
  | matchesAny => some space.length
  -- the comparison is with the start of the host, where the code asserts that it is
  | startsWithString criteria =>
    if pos = 0 ∧ criteria <+: space then some (pos + criteria.length) else none
  | endsWithString criteria =>
    if space.length - pos < criteria.length then none
    else if criteria <:+ space then some space.length
    else none
  | matchesString criteria =>
    if pos + criteria.length ≤ space.length ∧ criteria <+: space.drop pos then
      some (pos + criteria.length)
    else none
  | containsString criteria => (find criteria space pos).map (· + criteria.length)
  | matchesNumber group =>
    match group.match space pos with
    | (true, pos) => some pos
    | (false, _) => none
  | containsNumberMatch group => group.search space (space.length + 1) pos

/-- `retry`: the position behind the next match. -/
def retry (space : Text) (pos : Nat) : AddressMatcher → Option Nat
  | containsString criteria =>
    (containsString criteria).match space (pos - (criteria.length - 1))
  | containsNumberMatch group => (containsNumberMatch group).match space pos
  | _ => none

end AddressMatcher

/-! ## Rules -/

/-- The IP transports. -/
inductive Protocol where
  | tcp
  | ssl
  | udp
  | ws
  | wss
deriving DecidableEq, Repr

def Protocol.text : Protocol → Text
  | tcp => "tcp".toList
  | ssl => "ssl".toList
  | udp => "udp".toList
  | ws => "ws".toList
  | wss => "wss".toList

/-- `to_string(port)`. -/
def portText (port : Int) : Text :=
  if port < 0 then '-' :: Nat.toDigits 10 port.natAbs else Nat.toDigits 10 port.natAbs

/-- `extractPart`: the word behind an option. -/
def extractPart (opt source : Text) : Option Text :=
  (findText opt source).map fun start => (source.drop (start + opt.length)).takeWhile (· ≠ ' ')

/-- An IP endpoint, with the options behind host and port (`--sourceAddress`, `-t`, `-z`, `-r`, ...)
    as a text. -/
structure Endpoint where
  protocol : Protocol
  host : Text
  port : Int
  others : Text

/-- `IPEndpointI::options` and the options that the transports add. -/
def Endpoint.options (e : Endpoint) : Text :=
  (if e.host = [] then []
    else if ':' ∈ e.host then " -h ".toList ++ '"' :: (e.host ++ ['"'])
    else " -h ".toList ++ e.host) ++
    (" -p ".toList ++ (portText e.port ++ e.others))

/-- `EndpointI::toString`. -/
def Endpoint.toString (e : Endpoint) : Text := e.protocol.text ++ e.options

def toLower (s : Text) : Text := s.map Char.toLower

/-- The resolver treats the name `name.` as `name`. -/
def stripDot (s : Text) : Text := if 1 < s.length ∧ s.getLast? = some '.' then s.dropLast else s

/-- How hosts and entries are folded before they are compared. -/
def fold (s : Text) : Text := stripDot (toLower s)

structure AddressRule where
  addressRules : List AddressMatcher
  portMatcher : Option Group
  matchAnyEndpoint : Bool
deriving DecidableEq, Repr

/-- `AddressRule::matchAddress`. The matchers are those from `index` on; `failed` is the matrix of
    the states in which they are known to fail. -/
def matchAddress (host : Text) :
    List AddressMatcher → Nat → Nat → List Bool → Bool × List Bool
  | [], _, pos, failed => (pos = host.length, failed)
  | rule :: rules, index, pos, failed =>
    let state := index * (host.length + 1) + pos
    if failed.getD state false then (false, failed)
    else
      -- `while (matched)`: every retry is behind the last match
      match Misc.tryAll (rule.retry host) (matchAddress host rules (index + 1)) (host.length + 1)
        (rule.match host pos) failed with
      | (true, failed) => (true, failed)
      | (false, failed) => (false, failed.set state true)

namespace AddressRule

def matchEndpoint (r : AddressRule) (e : Endpoint) : Bool :=
  let info := e.toString
  match extractPart "-h ".toList info with
  | none => false
  | some host =>
    let host := fold host
    match extractPart "-p ".toList info with
    | none => false
    | some port =>
      if r.portMatcher.any fun group => !(group.match port 0).1 then false
      else
        (matchAddress host r.addressRules 0 0
          (List.replicate (r.addressRules.length * (host.length + 1)) false)).1

def check (r : AddressRule) (endpoints : List Endpoint) : Bool :=
  if endpoints = [] then false
  else if r.matchAnyEndpoint then endpoints.any r.matchEndpoint
  else endpoints.all r.matchEndpoint

end AddressRule

/-! ## The parser -/

/-- The factories that are current in the loop. `EndsWithFactory` is taken behind the loop only, for
    a string. -/
inductive AddressMatcherFactory where
  | start
  | wildCard
  | following
deriving DecidableEq, Repr

namespace AddressMatcherFactory

def create (criteria : Text) : AddressMatcherFactory → AddressMatcher
  | start => .startsWithString criteria
  | wildCard => .containsString criteria
  | following => .matchesString criteria

def createGroup (group : Group) : AddressMatcherFactory → AddressMatcher
  | start => .matchesNumber group
  | wildCard => .containsNumberMatch group
  | following => .matchesNumber group

end AddressMatcherFactory

/-- The variables of the loop in `parseProperty`. -/
structure Parser where
  currentRuleSet : List AddressMatcher := []
  currentFactory : AddressMatcherFactory := .start
  inGroup : Bool := false
  /-- the characters from `mark` up to `current` -/
  marked : Text := []

namespace Parser

/-- A matcher for the characters since the mark, if there are any. -/
def flush (p : Parser) : List AddressMatcher :=
  if p.marked = [] then p.currentRuleSet
  else p.currentRuleSet ++ [p.currentFactory.create p.marked]

/-- The body of the loop. -/
def step (p : Parser) (c : Char) : Except InvalidArgument Parser :=
  if c = '*' then
    if p.inGroup then .error .wildcardInGroup
    else .ok { currentRuleSet := p.flush, currentFactory := .wildCard }
  else if c = '[' then
    if p.inGroup then .error .openInGroup
    else
      .ok { currentRuleSet := p.flush
            currentFactory := if p.marked = [] then p.currentFactory else .following
            inGroup := true }
  else if c = ']' then
    if !p.inGroup then .error .closeWithoutOpen
    else if p.marked = [] then .error .emptyGroup
    else do
      let group ← parseGroup p.marked
      return { currentRuleSet := p.currentRuleSet ++ [p.currentFactory.createGroup group]
               currentFactory := .following }
  else .ok { p with marked := p.marked ++ [c] }

/-- What is left to do behind the loop. -/
def finish (p : Parser) : Except InvalidArgument (List AddressMatcher) :=
  if p.inGroup then .error .unclosedGroup
  else if p.marked ≠ [] then
    -- a trailing string is at the end of the host when a wildcard is before it
    if p.currentFactory = .wildCard then .ok (p.currentRuleSet ++ [.endsWithString p.marked])
    else .ok p.flush
  else if p.currentFactory = .wildCard then .ok (p.currentRuleSet ++ [.matchesAny])
  else .ok p.currentRuleSet

/-- The loop from a state on. -/
def run (p : Parser) (addr : Text) : Except InvalidArgument (List AddressMatcher) :=
  addr.foldlM step p >>= finish

end Parser

/-- The matchers of the address part of an entry. -/
def parseAddress (addr : Text) : Except InvalidArgument (List AddressMatcher) :=
  if addr = [] then .error .noAddress
  else if addr = ['*'] then .ok [.matchesAny]
  else ({} : Parser).run addr

/-- The port part of an entry, with or without brackets. -/
def parsePort (port : Text) : Except InvalidArgument Group :=
  match findText ['['] port with
  | none => parseGroup port
  | some openBracket =>
    match findText [']'] (port.drop (openBracket + 1)) with
    | none => .error .unclosedGroup
    | some length => parseGroup ((port.drop (openBracket + 1)).take length)

/-- The rule of an entry. -/
def parseEntry (matchAnyEndpoint : Bool) (parameter : Text) : Except InvalidArgument AddressRule :=
  match findText [':'] parameter with
  | none => do
    let address ← parseAddress (fold parameter)
    return ⟨address, none, matchAnyEndpoint⟩
  | some portPortion => do
    let port ← parsePort (parameter.drop (portPortion + 1))
    let address ← parseAddress (fold (parameter.take portPortion))
    return ⟨address, some port, matchAnyEndpoint⟩

/-- The entries of a property, as `propertyInput >> parameter` gives them until the end of the
    stream is reached. White space at the end gives an empty entry. -/
def entriesLoop : Nat → Text → List Text
  | 0, _ => []
  | fuel + 1, input =>
    let input := input.dropWhile isSpace
    let parameter := input.takeWhile (!isSpace ·)
    match input.dropWhile (!isSpace ·) with
    | [] => [parameter]
    | rest => parameter :: entriesLoop fuel rest

def entries (property : Text) : List Text := entriesLoop (property.length + 1) property

def parseProperty (property : Text) (matchAnyEndpoint : Bool) :
    Except InvalidArgument (List AddressRule) :=
  (entries property).mapM (parseEntry matchAnyEndpoint)

end Ice.Glacier2
