import MsnGuard.AetherVariables
import MsnGuard.KotlinText

/-!
# The environment of a connect

The app configures the engine through the environment of its own process. One builder collects
the variables of a connect from the preferences, another one from the configuration of the
attempt. Installing a map sets its variables and clears those of a fixed list that it does not
have.
-/

namespace MsnGuard.CoreConfigEnv

open ProcessEnvironments KotlinText AetherVariables
open RustText hiding trim isWhitespace

/-- The preferences that hold a text; the secrets are stored under the same names. -/
inductive StringPref where
  | aetherEch | aetherEchDns | aetherEchDomain | defaultMasqueTransport | defaultProtocol
  | defaultScan | defaultScanMode | dnsServers | endpointDiscovery | h2Fragmentation | logLevel
  | manualEndpoint | manualInnerEndpoint | obfuscationProfile | perfProfile | routeBlock
  | routeDirect | tlsCurvePreset | tunnelMode | warpScannerMode | zeroTrustClientId
  | zeroTrustClientSecret | zeroTrustEmail | zeroTrustTeam | zeroTrustToken
  deriving DecidableEq

/-- The preferences that hold a switch. -/
inductive BoolPref where
  | mimArmed | mixedCaseSni | psiphonLanSharing | wireguardDataCheck
  deriving DecidableEq

/-- The transports whose packet size the engine takes from the app. -/
inductive Method where
  | masque | wireguard | wow
  deriving DecidableEq

/-- The preferences that hold a number. -/
inductive IntPref where
  | mtu (method : Method) | proxyListenPort
  deriving DecidableEq

/-- What the builder reads of the device. -/
structure Context where
  /-- The text preferences that are stored. -/
  getString : StringPref → Option Text
  /-- The switches that are stored. -/
  getBoolean : BoolPref → Option Bool
  /-- The numbers that are stored. -/
  getInt : IntPref → Option ℤ
  /-- The secrets that are stored, as they decrypt. -/
  decrypted : StringPref → Option Text
  /-- The directory of the app's files. -/
  filesDir : Text
  /-- The key for the account interface that the last probe brought, if any. -/
  freshApiEch : Option Text
  /-- The packet size that this connect measured for a transport, if any. -/
  sessionValue : Method → Option ℤ

variable (table : CaseTable)

section Preferences

variable (context : Context)

/-- A text preference without the whitespace around it. -/
def text (key : StringPref) (fallback : Text) : Text :=
  trim ((context.getString key).getD fallback)

/-- A switch. -/
def bool (key : BoolPref) (fallback : Bool) : Bool := (context.getBoolean key).getD fallback

/-- A secret; one that was never moved to the store is still a plain preference. -/
def getSecret (key : StringPref) : Text :=
  match context.decrypted key with
  | some secret => ifBlank secret []
  | none => ifBlank ((context.getString key).getD []) []

/-- Has the user armed the second MASQUE hop? -/
def mimArmed : Bool := bool context .mimArmed false

/-- Is the tunnel published as a local proxy only? -/
def proxyOnly : Bool := decide (context.getString .tunnelMode=some "socks".toList)

/-- May other devices use the local proxies? -/
def lanSharingEnabled : Bool := bool context .psiphonLanSharing false

/-- The port of the app's own listener. -/
def socksPort : ℤ := 1819

/-- The port of the engine's listener below another transport. -/
def chainSocksPort : ℤ := 1820

/-- The port of the shared HTTP proxy. -/
def httpProxyPort : ℤ := 8080

/-- The port offered for the local proxy. -/
def defaultProxyPort : ℤ := 10808

/-- The ports that the app binds for itself. -/
def reservedPorts : List ℤ :=
  [chainSocksPort,1822,1823,1824,1825,1826,1827,7300,httpProxyPort]

/-- Why a port cannot be used. -/
def portRejection (port : ℤ) : Option Text :=
  if port<1024 then some "Ports below 1024 need root".toList
  else if 65535<port then some "Highest port is 65535".toList
  else if port∈reservedPorts then some (decimal port ++ " is used internally by MSN-GUARD".toList)
  else none

/-- The port of the local proxy. -/
def proxyListenPort : ℤ :=
  let stored := (context.getInt .proxyListenPort).getD defaultProxyPort
  if portRejection stored=none then stored else defaultProxyPort

/-- The host that the listener of the engine binds. -/
def proxyBindHost : Text :=
  if proxyOnly context && lanSharingEnabled context then "0.0.0.0".toList else "127.0.0.1".toList

/-- The port that this session publishes. -/
def sharedSocksPort : ℤ := if proxyOnly context then proxyListenPort context else socksPort

/-- The size a transport uses when nothing is stored. -/
def Method.default : Method → ℤ
  | .masque => 1304
  | .wireguard => 1440
  | .wow => 1280

/-- The number stored for a transport; zero and minus one stand for none. -/
def storedMtu (method : Method) : ℤ := (context.getInt (.mtu method)).getD (-1)

/-- Has the user chosen a packet size? -/
def isCustom (method : Method) : Bool :=
  decide (storedMtu context method ≠ -1 ∧ storedMtu context method≠0)

/-- The packet size of a transport. -/
def mtu (method : Method) : ℤ :=
  match context.sessionValue method with
  | some measured => measured
  | none =>
    if storedMtu context method = -1 ∨ storedMtu context method=0 then method.default
    else max 68 (min (storedMtu context method) 1500)

/-- Does the engine get a packet size for a transport? -/
def sendsMtu (method : Method) : Bool :=
  isCustom context method || (context.sessionValue method).isSome

/-- The scanner the user has chosen. -/
inductive ScannerMode where
  | normal | ptechV4 | ptechV6
  deriving DecidableEq

/-- Which scanner is chosen, under its present and its former names. -/
def warpScannerMode : ScannerMode :=
  let raw := toLowercase table (trim
    ((context.getString .warpScannerMode).getD "ptech-ipv4".toList))
  if raw∈["ptech-ipv4".toList,"ptech_ipv4".toList,"ptech-v4".toList,"ptech_v4".toList] then
    .ptechV4
  else if raw∈["ptech-ipv6".toList,"ptech_ipv6".toList,"ptech-v6".toList,"ptech_v6".toList] then
    .ptechV6
  else if raw∈["normal".toList,"default".toList,"engine".toList,[]] then .normal
  else if raw = "ptech".toList then .ptechV4
  else .normal

end Preferences

/-- The parameters of the builder. -/
structure EnvArgs where
  /-- The transport, or none for the stored one. -/
  protocol : Option Text
  /-- The port of the engine's listener, if it is the outer leg of a chain. -/
  listenOverride : Option ℤ
  /-- The proxy that the engine dials through, or an empty text. -/
  socksProxyForCore : Text
  /-- Does the listener answer UDP associations itself? -/
  localUdpAssociate : Bool

section Builder

variable (context : Context) (args : EnvArgs)

/-- The transport of this connect. -/
def effectiveProtocol : Text :=
  let chosen := args.protocol.getD (text context .defaultProtocol "wireguard".toList)
  if chosen = "masque".toList ∧ mimArmed context=true then "mim".toList else chosen

/-- Is the transport one of the MASQUE ones? -/
def isMasqueForEnv : Bool :=
  decide (effectiveProtocol context args = "masque".toList ∨
    effectiveProtocol context args = "mim".toList)

/-- Is the transport WireGuard inside WireGuard? -/
def isGool : Bool := decide (effectiveProtocol context args = "gool".toList)

/-- The identity file, the transport and its mode. -/
def protocolWrites : Writes :=
  put .config (context.filesDir ++ "/aether.toml".toList) ++
    put .protocol (effectiveProtocol context args) ++
    onlyIf (isGool context args) (put .goolMode "classic".toList)

/-- Does this session share its HTTP proxy? -/
def sharesHttpProxy : Bool :=
  args.listenOverride.isNone && proxyOnly context && lanSharingEnabled context

/-- The listeners. The outer leg of a chain stays on the loopback. -/
def listenerWrites : Writes :=
  put .socks (match args.listenOverride with
    | some port => "127.0.0.1:".toList++decimal port
    | none => proxyBindHost context ++ ":".toList++decimal (sharedSocksPort context)) ++
    onlyIf (sharesHttpProxy context args)
      (put .httpProxy ("0.0.0.0:".toList++decimal httpProxyPort))

/-- How gateways are searched and how the handshakes are obfuscated. -/
def scanWrites : Writes :=
  put .scan (text context .defaultScanMode "balanced".toList) ++
    put .ip (if isMasqueForEnv context args then "v4".toList
      else text context .defaultScan "both".toList) ++
    onlyIf (!isMasqueForEnv context args)
      (put .noize (ifBlank (text context .obfuscationProfile []) "balanced".toList))

/-- The endpoint that the user entered, unless this is the outer leg of a chain. -/
def manualEndpoint (key : StringPref) : Option Text :=
  if args.listenOverride.isNone then nonBlank (text context key []) else none

/-- The endpoints of both hops. -/
def peerWrites : Writes :=
  (match manualEndpoint context args .manualEndpoint with
    | some peer => put .peer peer++put .wgPeer peer
    | none => [])++(match manualEndpoint context args .manualInnerEndpoint with
    | some peer => put .wiwInnerPeer peer++put .mimInnerPeer peer
    | none => [])

/-- Is MASQUE carried by HTTP/2? -/
def usesHttp2 : Bool :=
  isMasqueForEnv context args ||
    decide (text context .defaultMasqueTransport "h3".toList = "h2".toList)

/-- The carrier of MASQUE and the packet sizes. -/
def transportWrites : Writes :=
  onlyIf (usesHttp2 context args) (put .masqueHttp2 "1".toList) ++
    onlyIf (sendsMtu context .masque) (put .masqueMtu (decimal (mtu context .masque))) ++
    onlyIf (sendsMtu context .wireguard) (put .wgMtu (decimal (mtu context .wireguard))) ++
    onlyIf (sendsMtu context .wow)
      (put .wgMtu (decimal (mtu context .wow))++put .masqueMtu (decimal (mtu context .wow)))

/-- The TLS fingerprint that the user has chosen. -/
def tlsPreset : Text := ifBlank (text context .tlsCurvePreset []) "chrome".toList

/-- Is the fingerprint another one than the engine's own? -/
def customTls : Bool := decide (toLowercase table (tlsPreset context) ≠ "chrome".toList)

/-- The TLS fingerprint and the check of the data path. -/
def tlsWrites : Writes :=
  onlyIf (customTls table context)
    (put .tlsGroups (tlsPreset context)++put .tlsCiphers (tlsPreset context)) ++
    onlyIf (!bool context .wireguardDataCheck true) (put .wgNoDataCheck "1".toList)

/-- The addresses of the second scanner's first family. -/
def ptechPrefixesV4 : Text :=
  ("162.159.192.0/24,162.159.193.0/24,162.159.195.0/24,188.114.96.0/24,188.114.97.0/24," ++
    "188.114.98.0/24,188.114.99.0/24").toList

/-- The addresses of the second scanner's other family. -/
def ptechPrefixesV6 : Text := "2606:4700:d0::/48,2606:4700:d1::/48".toList

/-- The ports of the second scanner. -/
def ptechWgPorts : Text := "2408,500,1701,4500".toList

/-- The addresses that are scanned; MASQUE always scans those of the engine. -/
def scannerWrites : Writes :=
  onlyIf (!isMasqueForEnv context args) (match warpScannerMode table context with
    | .ptechV4 =>
      put .scanCidrsV4 ptechPrefixesV4++put .scanCidrsV6 ptechPrefixesV6 ++
        put .wgPorts ptechWgPorts++put .ptechScan "1".toList
    | .ptechV6 =>
      put .scanCidrsV4 []++put .scanCidrsV6 ptechPrefixesV6++put .wgPorts ptechWgPorts ++
        put .ptechScan "1".toList++put .ip "v6".toList
    | .normal => [])

/-- The server name of MASQUE, the counters and the log. -/
def reportWrites : Writes :=
  onlyIf (isMasqueForEnv context args) (put .masqueSni "www.cloudflare.com".toList) ++
    put .stats "1".toList++put .statsSecs "86400".toList ++
    put .logLevel (text context .logLevel "info".toList) ++
    put .perfProfile (text context .perfProfile "auto".toList)

/-- Is the first flight of HTTP/2 cut into pieces? -/
def fragments : Bool := decide (text context .h2Fragmentation "off".toList = "on".toList)

/-- Fragmentation, which is switched off by name for MASQUE. -/
def fragmentWrites : Writes :=
  let sni := onlyIf (bool context .mixedCaseSni false) (put .masqueH2FragmentSni "1".toList)
  if isMasqueForEnv context args then put .masqueH2Fragment "0".toList++sni
  else onlyIf (fragments context) (put .masqueH2Fragment "1".toList++sni)

/-- The key that is built in for the account interface. -/
def embeddedEch : Text :=
  ("AEX+DQBBrwAgACCbK1mYDYFz/BAn6S5t+Q/v+Oej3eFNxtPWgz50fNnFPAAEAAEAAQASY2xvdWRmbGFyZS1l" ++
    "Y2guY29tAAA=").toList

/-- How a connect without an upstream proxy hides its server names. -/
inductive EchChoice where
  | off
  /-- A key for the account interface only. -/
  | api (value : Text)
  /-- A key, or a way to find it, for every handshake. -/
  | session (value : Text)

/-- The choice from the preference, which wins over the built-in key. -/
def echChoice : EchChoice :=
  let echRaw := trim (text context .aetherEch [])
  let echLower := toLowercase table echRaw
  let isWarpForIdentity := !isMasqueForEnv context args &&
    (decide (effectiveProtocol context args = "wireguard".toList) || isGool context args)
  if echLower=[] ∧ isWarpForIdentity=true then .api (context.freshApiEch.getD embeddedEch)
  else if echLower=[] then .off
  else if echLower∈["auto".toList,"1".toList,"true".toList] then .session "auto".toList
  else if echLower∈["off".toList,"0".toList,"false".toList] then .off
  else .session echRaw

/-- The variable is set unless the text is empty. -/
def putNonEmpty (k : Var) (v : Text) : Writes := onlyIf (!v.isEmpty) (put k v)

/-- Take every setting for hidden server names out of the map. -/
def removeEch : Writes := remove .ech++remove .apiEch++remove .echDns++remove .echDomain

/-- Hidden server names without an upstream proxy, and the proxy without them. -/
def upstreamWrites : Writes :=
  if isBlank args.socksProxyForCore && !isMasqueForEnv context args then
    match echChoice table context args with
    | .off => []
    | .api value => put .apiEch value
    | .session value =>
      put .ech value++putNonEmpty .echDns (trim (text context .aetherEchDns [])) ++
        putNonEmpty .echDomain (trim (text context .aetherEchDomain []))
  else onlyIf (!isBlank args.socksProxyForCore)
    (put .upstream args.socksProxyForCore ++
      onlyIf args.localUdpAssociate (put .localUdpAssociate "1".toList)++removeEch)

/-- The variable is set unless the text is blank. -/
def putNonBlank (k : Var) (v : Text) : Writes := onlyIf (!isBlank v) (put k v)

/-- The team, which is a preference or a secret. -/
def zeroTrustTeam : Text :=
  ifBlank (text context .zeroTrustTeam []) (getSecret context .zeroTrustTeam)

/-- The account of an organisation. -/
def zeroTrustWrites : Writes :=
  putNonBlank .team (zeroTrustTeam context) ++
    putNonBlank .accessClientId (getSecret context .zeroTrustClientId) ++
    putNonBlank .accessClientSecret (getSecret context .zeroTrustClientSecret) ++
    putNonBlank .accessToken (getSecret context .zeroTrustToken) ++
    putNonBlank .accessEmail (getSecret context .zeroTrustEmail)

/-- Resolvers, split routing and whether the last gateway is tried first. -/
def routingWrites : Writes :=
  putNonBlank .dns (text context .dnsServers []) ++
    putNonBlank .routeBlock (text context .routeBlock []) ++
    putNonBlank .routeDirect (text context .routeDirect []) ++
    put .quickReconnect
      (if toLowercase table (text context .endpointDiscovery "cache".toList) = "fresh".toList
        then "0".toList else "1".toList)

/-- Everything the builder writes to its map, in order. -/
def envWrites : Writes :=
  protocolWrites context args++listenerWrites context args++scanWrites context args ++
    peerWrites context args++transportWrites context args++tlsWrites table context ++
    scannerWrites table context args++reportWrites context args ++
    fragmentWrites context args++upstreamWrites table context args ++
    onlyIf (isMasqueForEnv context args) removeEch++zeroTrustWrites context ++
    routingWrites table context

/-- The environment of a connect. -/
def env : Settings Var Text := fill (envWrites table context args) ∅

end Builder

/-- What the configuration of an attempt overrides; an absent field is empty. -/
structure Overrides where
  /-- The transport. -/
  protocol : Text
  /-- The endpoint that is dialled whatever the preferences say. -/
  forcedPeer : Text
  /-- The proxy to dial through, usually an address without a scheme. -/
  socksProxy : Text

/-- The proxy as a URL. -/
def upstreamUrl (w : Text) : Text :=
  if startsWithIgnoreCase "socks5://".toList w then w
  else if containsText "://".toList w then w
  else "socks5://".toList++w

/-- The parameters of the builder under the overrides. -/
def Overrides.args (overrides : Overrides) (listenOverride : Option ℤ) (localUdpAssociate : Bool) :
    EnvArgs where
  protocol := nonBlank overrides.protocol
  listenOverride := listenOverride
  socksProxyForCore := ((nonBlank overrides.socksProxy).map upstreamUrl).getD []
  localUdpAssociate := localUdpAssociate

/-- The environment of a connect under the overrides. -/
def envFromEffectiveConfig (context : Context) (overrides : Overrides) (listenOverride : Option ℤ)
    (localUdpAssociate : Bool) : Settings Var Text :=
  let base := env table context (overrides.args listenOverride localUdpAssociate)
  match nonBlank overrides.forcedPeer with
  | some peer => fill (put .peer peer++put .wgPeer peer) base
  | none => base

/-- The variables that an install clears if the map does not have them. -/
def clearIfAbsent : List Var :=
  [.upstream,.localUdpAssociate,.ech,.apiEch,.echDns,.echDomain,.scanCidrsV4,.scanCidrsV6,.wgPorts,
    .ptechScan,.register]

/-- What installing a map writes to the process. -/
def applyWrites (map : Settings Var Text) : Writes :=
  setAll map++unsetAll (clearIfAbsent.filter fun key => decide (key ∉ map))

/-- Install a map in the process. -/
def applyEnv (map : Settings Var Text) (e : Env) : Env := exec (applyWrites map) e

end MsnGuard.CoreConfigEnv
