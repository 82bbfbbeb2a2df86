import MsnGuard.AetherVariables

/-!
# The arguments of the engine

The engine reads its options from its variables, and an argument list is only
another way to write them: every flag sets one or two of them, to a fixed value
or to the argument after it, and two flags add to a list.
-/

namespace MsnGuard.AetherArguments

open ProcessEnvironments RustText AetherVariables

/-- What a flag gives a variable. -/
inductive Value where
  | fixed (text : Text)
  /-- The argument after the flag. -/
  | next

/-- What a flag does. -/
inductive Flag where
  /-- Print something and end. -/
  | done
  /-- Set variables. -/
  | sets (writes : List (Var × Value))
  /-- Add the argument after the flag to a list. -/
  | appends (k : Var)

/-- Why an argument list is refused. -/
inductive Refusal where
  | unknownOption (arg : Text)
  | requiresValue (arg : Text)

/-- What an argument list asks for. -/
inductive Parsed where
  | run
  | done
  | refused (why : Refusal)

/-- A flag that ends the program. -/
def ends (name : String) : Text × Flag := (name.toList,.done)

/-- A flag that sets a variable to the argument after it. -/
def takes (name : String) (k : Var) : Text × Flag := (name.toList,.sets [(k,.next)])

/-- A flag that sets a variable to a fixed value. -/
def gives (name : String) (k : Var) (v : String) : Text × Flag :=
  (name.toList,.sets [(k,.fixed v.toList)])

/-- A flag that adds the argument after it to a list. -/
def adds (name : String) (k : Var) : Text × Flag := (name.toList,.appends k)

/-- All flags. -/
def flags : List (Text × Flag) :=
  [ends "-v",ends "--version",ends "-h",ends "--help",ends "help",takes "--bind" .socks,
    takes "--http-proxy" .httpProxy,takes "--upstream" .upstream,gives "--tor" .tor "chain",
    gives "--tor-reverse" .tor "reverse",gives "--tor-only" .tor "only",
    adds "--tor-bridge" .torBridges,gives "--tor-bridges" .torBridges "auto",
    takes "--tor-bridge-file" (.other "TOR_BRIDGE_FILE".toList),
    takes "--tor-relays" (.other "TOR_RELAYS".toList),
    takes "--tor-relay-ports" (.other "TOR_RELAY_PORTS".toList),
    gives "--no-tor-bridges" .torBridges "off",adds "--tor-pt" .torPt,
    adds "--tor-pt-dir" (.other "TOR_PT_DIR".toList),takes "--tor-bind" .torBind,
    takes "--tor-http" .torHttp,takes "--tor-dir" .torDir,gives "--psiphon" .psiphon "chain",
    gives "--psiphon-reverse" .psiphon "reverse",gives "--psiphon-only" .psiphon "only",
    takes "--psiphon-config" (.other "PSIPHON_CONFIG".toList),
    takes "--psiphon-bind" (.other "PSIPHON_BIND".toList),
    takes "--psiphon-http" (.other "PSIPHON_HTTP".toList),
    takes "--psiphon-region" (.other "PSIPHON_REGION".toList),
    takes "--psiphon-mode" (.other "PSIPHON_MODE".toList),
    takes "--psiphon-cdn-ips" (.other "PSIPHON_CDN_IPS".toList),
    takes "--psiphon-cdn-sni" (.other "PSIPHON_CDN_SNI".toList),
    takes "--psiphon-cdn-sets" (.other "PSIPHON_CDN_SETS".toList),
    takes "--psiphon-dir" (.other "PSIPHON_DIR".toList),
    takes "--psiphon-bin" (.other "PSIPHON_BIN".toList),
    takes "--psiphon-server-entries" (.other "PSIPHON_SERVER_ENTRIES".toList),
    takes "--mark" (.other "MARK".toList),takes "--exit-loc" .exitLoc,
    takes "--exit-loc-secs" .exitLocSecs,gives "--stats" .stats "1",takes "--stats-secs" .statsSecs,
    gives "--quick-reconnect" .quickReconnect "1",gives "--no-quick-reconnect" .quickReconnect "0",
    gives "-4" .ip "v4",gives "-6" .ip "v6",gives "--dual" .ip "both",takes "--ip" .ip,
    takes "--peer" .peer,takes "--wg-peer" .wgPeer,takes "--wiw-outer" .wiwOuterPeer,
    takes "--gool-outer" .wiwOuterPeer,takes "--outer-peer" .wiwOuterPeer,
    takes "--wiw-inner" .wiwInnerPeer,takes "--gool-inner" .wiwInnerPeer,
    takes "--inner-peer" .wiwInnerPeer,takes "--wiw-peers" .wiwPeers,takes "--gool-peers" .wiwPeers,
    gives "--wiw-scan" .wiwPeers "auto",gives "--gool-scan" .wiwPeers "auto",
    gives "--masque" .protocol "masque",gives "--wg" .protocol "wg",
    gives "--wireguard" .protocol "wg",gives "--warp" .protocol "wg",
    gives "--gool" .protocol "gool",gives "--wiw" .protocol "gool",
    ("--gool-peer".toList,.sets [(.protocol,.fixed "gool".toList),(.goolInner,.next)]),
    gives "--api-fragment" (.other "API_FRAGMENT".toList) "1",
    ("--gool-classic".toList,.sets [(.protocol,.fixed "gool".toList),
      (.goolMode,.fixed "classic".toList)]),
    gives "--mim" .protocol "mim",gives "--masque-in-masque" .protocol "mim",
    takes "--mim-outer" (.other "MIM_OUTER_PEER".toList),takes "--mim-inner" .mimInnerPeer,
    takes "--mim-peers" (.other "MIM_PEERS".toList),
    gives "--mim-scan" (.other "MIM_PEERS".toList) "auto",takes "--protocol" .protocol,
    takes "--scan" .scan,gives "--turbo" .scan "turbo",gives "--balanced" .scan "balanced",
    gives "--thorough" .scan "thorough",gives "--verified" .scan "verified",
    gives "--stealth" .scan "verified",gives "--ironclad" .scan "ironclad",takes "--noize" .noize,
    gives "--h2" .masqueHttp2 "1",gives "--http2" .masqueHttp2 "1",gives "--h3" .masqueHttp2 "0",
    gives "--quic" .masqueHttp2 "0",gives "--no-quic-v2" (.other "QUIC_V2".toList) "0",
    takes "--h2-peer" (.other "MASQUE_H2_PEER".toList),takes "--masque-sni" .masqueSni,
    takes "--ech" .ech,takes "--ech-dns" .echDns,takes "--ech-domain" .echDomain,
    ("--no-data-check".toList,.sets [(.other "MASQUE_NO_DATA_CHECK".toList,.fixed "1".toList),
      (.wgNoDataCheck,.fixed "1".toList)]),
    ("--validate-secs".toList,.sets [(.other "MASQUE_VALIDATE_SECS".toList,.next),
      (.other "WG_VALIDATE_SECS".toList,.next)]),
    takes "--startup-secs" (.other "MASQUE_STARTUP_SECS".toList),
    ("--reconnect-secs".toList,.sets [(.other "MASQUE_RECONNECT_SECS".toList,.next),
      (.other "WG_RECONNECT_SECS".toList,.next)]),
    takes "--dns" .dns,gives "--fragment" .masqueH2Fragment "1",
    gives "--no-fragment" .masqueH2Fragment "0",takes "--fragment-size" .masqueH2FragmentSize,
    takes "--fragment-delay" .masqueH2FragmentDelay,
    takes "--keepalive" (.other "WG_KEEPALIVE".toList),
    gives "--no-profile-retry" (.other "WG_NO_PROFILE_RETRY".toList) "1",takes "--config" .config,
    takes "--wg-config" (.other "WG_CONFIG".toList),
    takes "--masque-config" (.other "MASQUE_CONFIG".toList),takes "--register" .register,
    takes "--enroll-address" .enrollAddress,takes "--team" .team,takes "--organization" .team,
    takes "--access-id" .accessClientId,takes "--access-secret" .accessClientSecret,
    takes "--access-token" .accessToken,takes "--access-email" .accessEmail,
    gives "--gateway" (.other "GATEWAY".toList) "1",takes "--route-block" .routeBlock,
    takes "--route-direct" .routeDirect,takes "--routes" .routesFile,
    takes "--tls-groups" .tlsGroups,takes "--tls-ciphers" .tlsCiphers,
    gives "--disable-grease" .disableGrease "1",gives "--tls-verify" .tlsVerify "1",
    takes "--perf" .perfProfile,takes "--log-level" .logLevel,gives "--verbose" .logLevel "debug"]

/-- Set variables in order, up to one that needs the argument after the flag if
there is none. -/
def setFlag (given : Option Text) : List (Var × Value) → Env → Env
  | [],e => e
  | (k,.fixed text)::rest,e => setFlag given rest ((Write.set k text).run e)
  | (k,.next)::rest,e =>
    match given with
    | some text => setFlag given rest ((Write.set k text).run e)
    | none => e

/-- Is the argument after the flag one of the values? -/
def usesNext (writes : List (Var × Value)) : Bool :=
  writes.any fun write => match write.2 with
    | .fixed _ => false
    | .next => true

/-- Add to a list whose entries are separated by semicolons. -/
def appended (existing : Option Text) (value : Text) : Text :=
  match existing with
  | some text => if (trim text).isEmpty then value else text ++ ';'::value
  | none => value

/-- Write the variables that an argument list sets. -/
def parseArgs : List Text → Env → Parsed × Env
  | [],e => (.run,e)
  | arg::rest,e =>
    match flags.lookup arg with
    | none => (.refused (.unknownOption arg),e)
    | some .done => (.done,e)
    | some (.sets writes) =>
      if usesNext writes then
        match rest with
        | [] => (.refused (.requiresValue arg),setFlag none writes e)
        | value::rest' => parseArgs rest' (setFlag (some value) writes e)
      else parseArgs rest (setFlag none writes e)
    | some (.appends k) =>
      match rest with
      | [] => (.refused (.requiresValue arg),e)
      | value::rest' => parseArgs rest' ((Write.set k (appended (e k) value)).run e)

end MsnGuard.AetherArguments
