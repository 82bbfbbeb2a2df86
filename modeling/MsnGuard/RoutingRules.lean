import MsnGuard.IpAddresses

/-!
# Routing rules: entries, matchers and decisions

A rule set holds a block list and a direct list of matchers. Names are normalised when a rule is
read, while a destination name is compared by every kind of matcher in its own way. Regular
expressions and the reader of networks are taken as given operations.
-/

namespace MsnGuard.RoutingRules

open RustText IpAddresses

/-- What happens to a connection. -/
inductive Action where
  | proxy
  | direct
  | block
  deriving DecidableEq

/-- A destination as a rule sees it: a name as the client spelled it, or an address. -/
inductive Host where
  | domain (name : Text)
  | ip (address : IpAddr)
  deriving DecidableEq

/-- Operations of the packages a rule is built from, for the regular
expressions of type `R`. -/
structure RoutePackages (R : Type) where
  /-- Unicode case data of the standard library. -/
  caseTable : CaseTable
  /-- Compile a regular expression; malformed patterns are refused. -/
  regexNew : Text → Option R
  /-- Search the whole name for a match. -/
  regexIsMatch : R → Text → Bool
  /-- Read a network in CIDR form. -/
  ipNetFromStr : Text → Option IpNet

/-- One rule. -/
inductive Matcher (R : Type) where
  | domainSuffix (suffix : Text)
  | domainFull (full : Text)
  | domainKeyword (needle : Text)
  | domainRegex (pattern : R)
  | net (network : IpNet)
  | ports (lo hi : ℕ)
  | privateNets

/-- The kinds of entry a rule list knows; a bare entry names none. -/
inductive EntryKind where
  | suffix
  | full
  | keyword
  | regex
  | network
  | port
  | geo
  | bare
  | unknown
  deriving DecidableEq

/-- The words that name a kind, in lower case. -/
def EntryKind.ofText (kind : Text) : EntryKind :=
  if kind = "domain".toList ∨ kind = "suffix".toList then .suffix
  else if kind = "full".toList ∨ kind = "exact".toList then .full
  else if kind = "keyword".toList then .keyword
  else if kind = "regexp".toList ∨ kind = "regex".toList then .regex
  else if kind = "ip".toList ∨ kind = "cidr".toList then .network
  else if kind = "port".toList then .port
  else if kind = "geoip".toList ∨ kind = "geosite".toList then .geo
  else if kind=[] then .bare
  else .unknown

/-- LAN, loopback, link-local, documentation and CGNAT space of IPv4, and the
loopback, unspecified, unique-local and link-local space of IPv6. -/
def isPrivate : IpAddr → Bool
  | .v4 a =>
    let o := octet a
    (o 0 == 10 || (o 0 == 172 && decide (16≤o 1 ∧ o 1≤31)) || (o 0 == 192 && o 1 == 168)) ||
      o 0 == 127 || (o 0 == 169 && o 1 == 254) || a == ipv4OfOctets 255 255 255 255 ||
      ((o 0 == 192 && o 1 == 0 && o 2 == 2) || (o 0 == 198 && o 1 == 51 && o 2 == 100) ||
        (o 0 == 203 && o 1 == 0 && o 2 == 113)) ||
      a == 0 || (o 0 == 100 && decide (64≤o 1 ∧ o 1<128))
  | .v6 a => a == 1 || a == 0 || ipv6Segment a 0 &&& 0xfe00 == 0xfc00 || ipv6Segment a 0 &&& 0xffc0 == 0xfe80

/-- Parse a sixteen-bit number: decimal digits after an optional plus sign. -/
def parseU16 (s : Text) : Option ℕ :=
  let digits := match s with
    | '+' :: rest => rest
    | _ => s
  if digits≠[] ∧ digits.all (isDigit 10)=true ∧ digitsValue 10 digits<65536 then
    some (digitsValue 10 digits)
  else none

/-- A port or a range of ports; the ends of a range come in either order. -/
def parsePorts (value : Text) : Option (ℕ × ℕ) :=
  let value := trim value
  match splitOnce '-' value with
  | some (lo,hi) =>
    (parseU16 (trim lo)).bind fun lo =>
    (parseU16 (trim hi)).map fun hi => if hi<lo then (hi,lo) else (lo,hi)
  | none => (parseU16 value).map fun single => (single,single)

section Parsing

variable {R : Type} (pkgs : RoutePackages R)

/-- A network in CIDR form, or a bare address as a network of its own. -/
def parseNet (value : Text) : Option IpNet :=
  let value := trim value
  match pkgs.ipNetFromStr value with
  | some net => some net
  | none => (parseIpAddr value).map IpNet.ofAddr

/-- The name of a rule without wildcards, outer full stops and letter case. -/
def normalizeDomain (value : Text) : Option Text :=
  let cleaned := toLowercase pkgs.caseTable
    (trimEndMatches '.' (trimStartMatches '.' (trimStartMatches '*' (trim value))))
  if cleaned=[] then none else some cleaned

/-- The kind before the first colon, unless what stands there has a full stop
or a slash in it; an entry without a kind is its own value. -/
def splitEntry (entry : Text) : Text × Text :=
  match splitOnce ':' entry with
  | some (kind,value) =>
    if '.' ∉ kind ∧ '/' ∉ kind then (toLowercase pkgs.caseTable (trim kind),trim value)
    else ([],entry)
  | none => ([],entry)

/-- The matcher for the value of an entry of a known kind. -/
def Matcher.ofValue (kind : EntryKind) (value : Text) : Option (Matcher R) :=
  match kind with
  | .suffix => (normalizeDomain pkgs value).map .domainSuffix
  | .full => (normalizeDomain pkgs value).map .domainFull
  | .keyword =>
    let needle := toLowercase pkgs.caseTable (trim value)
    if needle=[] then none else some (.domainKeyword needle)
  | .regex => (pkgs.regexNew value).map .domainRegex
  | .network => (parseNet pkgs value).map .net
  | .port => (parsePorts value).map fun (lo,hi) => .ports lo hi
  | .geo => if eqIgnoreAsciiCase value "private".toList then some .privateNets else none
  | .bare =>
    if eqIgnoreAsciiCase value "private".toList then some .privateNets
    else match parseNet pkgs value with
      | some network => some (.net network)
      | none => (normalizeDomain pkgs value).map .domainSuffix
  | .unknown => none

/-- Read one entry of a rule list; what cannot be read is dropped. -/
def Matcher.parse (entry : Text) : Option (Matcher R) :=
  let entry := trim entry
  if entry=[] ∨ entry.head?=some '#' then none
  else
    let (kind,value) := splitEntry pkgs entry
    Matcher.ofValue pkgs (EntryKind.ofText kind) value

/-- Does the rule apply to the destination and port? -/
def Matcher.matches (m : Matcher R) (host : Host) (port : ℕ) : Bool :=
  match m,host with
  | .ports lo hi,_ => decide (lo≤port ∧ port≤hi)
  | .privateNets,.ip ip => isPrivate ip
  | .privateNets,.domain name => eqIgnoreAsciiCase name "localhost".toList
  | .net network,.ip ip => network.contains ip
  | .net _,.domain _ => false
  | .domainSuffix suffix,.domain name =>
    let name := toLowercase pkgs.caseTable name
    decide (name=suffix) || endsWith ('.' :: suffix) name
  | .domainFull full,.domain name => eqIgnoreAsciiCase name full
  | .domainKeyword needle,.domain name =>
    containsText needle (toLowercase pkgs.caseTable name)
  | .domainRegex pattern,.domain name => pkgs.regexIsMatch pattern name
  | .domainSuffix _,.ip _ => false
  | .domainFull _,.ip _ => false
  | .domainKeyword _,.ip _ => false
  | .domainRegex _,.ip _ => false

/-- The two rule lists of one configuration. -/
structure RuleSet (R : Type) where
  /-- Rules that refuse the connection. -/
  block : List (Matcher R)
  /-- Rules that send the connection past the tunnel. -/
  direct : List (Matcher R)

/-- Entries are separated by line ends, commas and semicolons. -/
def parseList (raw : Text) : List (Matcher R) :=
  (splitAny (fun c => c == '\n' || c == ',' || c == ';') raw).filterMap (Matcher.parse pkgs)

/-- Read both lists. -/
def RuleSet.parse (block direct : Text) : RuleSet R :=
  ⟨parseList pkgs block,parseList pkgs direct⟩

/-- Are there rules that need a name to decide? -/
def RuleSet.hasDomainRules (set : RuleSet R) : Bool :=
  (set.block++set.direct).any fun
    | .domainSuffix _ | .domainFull _ | .domainKeyword _ | .domainRegex _ => true
    | _ => false

/-- Some rule of the list applies. -/
def anyMatches (rules : List (Matcher R)) (host : Host) (port : ℕ) : Bool :=
  rules.any fun rule => rule.matches pkgs host port

/-- Block rules come first, then direct ones; all else goes through the proxy. -/
def RuleSet.decide (set : RuleSet R) (host : Host) (port : ℕ) : Action :=
  if anyMatches pkgs set.block host port then .block
  else if anyMatches pkgs set.direct host port then .direct
  else .proxy

end Parsing

end MsnGuard.RoutingRules
