import MsnGuard.AetherArguments
import MsnGuard.CancellableTasks
import MsnGuard.ExitLocation

/-!
# The engine's run

One call runs the whole engine: identities, Tor or Psiphon around or inside of the tunnel, and
then one of the tunnels until it is dropped. The model has every write to a variable, every
branch that reads one, every suspension and every task; what the surroundings answer is left
open.
-/

namespace MsnGuard.AetherEngine

open ProcessEnvironments RustText AetherVariables AetherArguments CancellableTasks

/-- The tasks of a run. A task stands for those that end with it. -/
inductive Task where
  /-- Logs the traffic counters at an interval, in an endless loop. -/
  | reporter
  /-- Tor inside of the tunnel, with its listeners. -/
  | torChain
  /-- Psiphon inside of the tunnel, with its process and its listeners. -/
  | psiphonChain
  /-- The listener of Tor around the tunnel. -/
  | torReverse
  /-- The process of Psiphon around the tunnel, with its listeners. -/
  | psiphonReverse
  /-- The HTTP listener of Tor. -/
  | torHttp
  /-- Looks up the exit of Tor or Psiphon once. -/
  | announceExit
  /-- Looks up the exit of a tunnel once; the stack of the tunnel, and what the
  stack alone keeps, stay until it is done. -/
  | exitReport
  /-- One lookup of a client of Tor over TCP. -/
  | dnsLookup
  /-- The TCP stack of a tunnel, which ends with the last handle to it. -/
  | netstack
  /-- Hands the addresses of the edge to the stack. -/
  | addressBridge
  /-- A MASQUE tunnel on either carrier. -/
  | masqueTunnel
  /-- The SOCKS listener with its clients. -/
  | socksServer
  /-- The HTTP listener with its clients. -/
  | httpProxy
  /-- Carries the inner hop over TCP. -/
  | tcpForwarder
  /-- Carries the inner hop over UDP, up. -/
  | udpForwarderUp
  /-- Carries the inner hop over UDP, down. -/
  | udpForwarderDown
  /-- A WireGuard tunnel. -/
  | wgTunnel
  /-- The check of one endpoint. -/
  | verification
  /-- The checks of a scan. -/
  | probes
  /-- The connection of one call to the account interface. -/
  | httpsDriver
  /-- Watches Tor while it starts. -/
  | torBootstrap
  /-- The process of Psiphon while the run waits for it. -/
  | psiphonClient
  deriving DecidableEq

/-- Every task but the reporter can come to an end by itself. -/
def Task.mortal (t : Task) : Prop := t≠.reporter

/-- Programs over the variables. -/
abbrev Engine := Prog Env Task

/-- Something that can fail without a suspension. -/
def check : Engine := .choose Bool fun fine => if fine then skip else .err

/-- Something that is waited for and can fail. -/
def io : Engine := .seq .await check

/-- Set a variable of the process. -/
def setVar (k : Var) (v : Text) : Engine := .write (Write.set k v).run

/-- Remove a variable of the process. -/
def clearVar (k : Var) : Engine := .write (Write.unset k).run

/-- The transports. -/
inductive Protocol where
  | masque | wireGuard | warpInWarp | masqueInMasque
  deriving DecidableEq

/-- How Tor or Psiphon takes part. -/
inductive CarrierMode where
  | off
  /-- Inside of the tunnel. -/
  | chain
  /-- Around the tunnel. -/
  | reverse
  /-- Without a tunnel. -/
  | only
  deriving DecidableEq

/-- The value of a variable that is set to something. -/
def envValue (e : Env) (k : Var) : Option Text :=
  match e k with
  | some value => if trim value=[] then none else some (trim value)
  | none => none

section Settings

variable (table : CaseTable)

/-- A text in lower case without the whitespace around it. -/
def normal (s : Text) : Text := toLowercase table (trim s)

/-- The transport that a name stands for. -/
def Protocol.parse (s : Text) : Protocol :=
  if normal table s∈["wg".toList,"wireguard".toList] then .wireGuard
  else if normal table s ∈
    ["gool".toList,"wiw".toList,"warp-in-warp".toList,"warpinwarp".toList] then .warpInWarp
  else if normal table s ∈
    ["mim".toList,"m2".toList,"masque-in-masque".toList,"masqueinmasque".toList] then
    .masqueInMasque
  else .masque

/-- The mode that a setting stands for; two of its names are the carrier's own. -/
def carrierMode (around alone : Text) (raw : Text) : CarrierMode :=
  if raw∈[[],"0".toList,"off".toList,"false".toList,"no".toList] then .off
  else if raw∈["reverse".toList,"rev".toList,around] then .reverse
  else if raw∈["only".toList,"alone".toList,alone,"direct".toList] then .only
  else .chain

/-- How Tor takes part. -/
def torMode (e : Env) : CarrierMode :=
  match e .tor with
  | none => .off
  | some value => carrierMode "warp-over-tor".toList "tor-only".toList (normal table value)

/-- How Psiphon takes part. -/
def psiphonMode (e : Env) : CarrierMode :=
  carrierMode "warp-over-psiphon".toList "psiphon-only".toList
    (normal table ((e .psiphon).getD []))

/-- Remove an ending, if the text ends so. -/
def stripEnding (tail s : Text) : Option Text :=
  if endsWith tail s then some (s.take (s.length-tail.length)) else none

/-- The name of an organisation, from a name, a host or a URL. -/
def normalizeTeam (raw : Text) : Option Text :=
  let value := normal table raw
  if value=[] then none else
  let value := (stripPrefix "https://".toList value).getD value
  let value := (stripPrefix "http://".toList value).getD value
  let value := trimEndMatches '/' value
  let value := ((splitAny (· == '/') value).head?).getD value
  let value := match stripEnding "cloudflareaccess.com".toList value with
    | some head => trimEndMatches '.' head
    | none => value
  if value=[] then none
  else if value.all fun c => c.isAlphanum || c == '-' || c == '_' then some value
  else none

/-- The organisation that the run belongs to. -/
def teamScope (e : Env) : Option Text := normalizeTeam table ((e .team).getD [])

/-- Is MASQUE carried by HTTP/2? -/
def h2Enabled (e : Env) : Bool :=
  match e .masqueHttp2 with
  | some value =>
    decide (normal table value∈["1".toList,"true".toList,"h2".toList,"yes".toList,"on".toList])
  | none => false

/-- Is WireGuard carried inside of WireGuard and not of MASQUE? -/
def goolClassic (e : Env) : Bool :=
  decide (e .goolMode∈[some "wiw".toList,some "wg".toList,some "classic".toList]) ||
    [Var.wiwOuterPeer,.wiwInnerPeer,.wiwPeers].any fun key => (envValue e key).isSome

/-- The identities that a registration is for. -/
structure RegisterSet where
  wireguard : Bool
  wireguardInner : Bool
  masque : Bool
  masqueInner : Bool

/-- The identities of a protocol, of both hops of a nested one, or all. -/
def RegisterSet.parse (value : Text) : Option RegisterSet :=
  let name := normal table value
  if name = "all".toList then some ⟨true,true,true,true⟩
  else if name = "masque".toList then some ⟨false,false,true,false⟩
  else if name∈["wg".toList,"wireguard".toList,"warp".toList] then
    some ⟨true,false,false,false⟩
  else if name∈["gool".toList,"wiw".toList,"warp-in-warp".toList] then
    some ⟨true,true,false,false⟩
  else if name∈["mim".toList,"masque-in-masque".toList] then some ⟨false,false,true,true⟩
  else none

end Settings

/-- Does Tor serve an HTTP proxy, if the address can be read? -/
def torHttpAsked (e : Env) : Bool :=
  match envValue e .torHttp with
  | some value => decide (value ≠ "off".toList)
  | none => false

/-- Serve the clients of Tor; a client can ask for a lookup over TCP. -/
def serveConnector : Engine :=
  .forever (.seq .await (.choose (Option Bool) fun
    | none => skip
    | some true => .detach .dnsLookup
    | some false => .err))

/-- Serve Tor. The handle of the HTTP listener is a local of this function. -/
def torServe : Engine :=
  .read fun e =>
    if torHttpAsked e then
      .choose Bool fun readable =>
        if readable then .seq io (.bare .torHttp serveConnector) else serveConnector
    else serveConnector

/-- Bind the listener of Tor and start Tor. -/
def torStart : Engine := .seq io (.seq (.hold .torBootstrap (.many .await)) check)

/-- Tor without a tunnel. -/
def torRunOnly : Engine := .seq torStart (.seq (.detach .announceExit) torServe)

/-- Tor around the tunnel: it is served by a task of its own. -/
def torStartReverse (k : Text → Engine) : Engine :=
  .seq torStart (.seq (.detach .announceExit) (.seq (.detach .torReverse) (.choose Text k)))

/-- Psiphon without a tunnel. -/
def psiphonRunOnly : Engine :=
  .seq check (.hold .psiphonClient (.seq (.many .await) (.seq check
    (.seq (.detach .announceExit) (.seq .await .err)))))

/-- Psiphon around the tunnel: a task of its own waits for the process. -/
def psiphonStartReverse (k : Text → Engine) : Engine :=
  .seq check (.seq (.hold .psiphonClient (.seq (.many .await) check))
    (.seq (.detach .announceExit) (.seq (.detach .psiphonReverse) (.choose Text k))))

/-- A call to the account interface. -/
def apiCall : Engine := .hold .httpsDriver (.many .await)

section Run

variable (table : CaseTable)

/-- Ask the organisation what it assigns to the device. -/
def adoptTeamProfile : Engine :=
  .read fun e =>
    if teamScope table e=none then skip
    else .seq apiCall (.read fun e' =>
      if e' .peer=none then
        .choose (Option Text) fun
          | none => skip
          | some assigned =>
            let port := if e' .protocol=some "wg".toList ∨ e' .protocol=some "gool".toList
              then "2408".toList else "443".toList
            setVar .teamEndpoint (assigned ++ ':'::port)
      else skip)

/-- Register an account and save it. -/
def provisionWarp : Engine := .seq apiCall (.seq check (.seq (adoptTeamProfile table) check))

/-- The WireGuard identity: the saved one, or a new one if it is missing or refused. -/
def loadOrProvisionWarp : Engine :=
  .seq check (.choose Bool fun saved =>
    if saved then
      .seq (adoptTeamProfile table) (.choose (Option Bool) fun
        | none => skip
        | some true => check
        | some false => provisionWarp table)
    else provisionWarp table)

/-- Register an account with a certificate and save it. -/
def provisionMasque : Engine :=
  .seq apiCall (.seq check (.seq apiCall (.seq check (.seq (adoptTeamProfile table)
    (.seq apiCall (.seq check check))))))

/-- The MASQUE identity: the saved one, completed if need be, or a new one. -/
def loadOrProvisionMasque : Engine :=
  .seq check (.choose (Option Bool) fun
    | none => provisionMasque table
    | some certified =>
      .seq (if certified then adoptTeamProfile table else apiCall)
        (.choose (Option Bool) fun
          | none => skip
          | some true => check
          | some false => provisionMasque table))

/-- Register the identities that are asked for and missing. -/
def registerAll (wanted : RegisterSet) : Engine :=
  let warp := loadOrProvisionWarp table
  let masque := loadOrProvisionMasque table
  .seq (if wanted.wireguard then warp else skip)
    (.seq (if wanted.wireguardInner then warp else skip)
      (.seq (if wanted.masque then masque else skip) (if wanted.masqueInner then masque else skip)))

/-- Registration without a tunnel, through a carrier if there is one. -/
def registerIdentities (wanted : RegisterSet) : Engine :=
  let through (socks : Text) :=
    .seq (setVar .upstream ("socks5://".toList++socks)) (registerAll table wanted)
  .read fun e =>
    if torMode table e=.reverse then
      if psiphonMode table e=.reverse then .err else torStartReverse through
    else if psiphonMode table e=.reverse then psiphonStartReverse through
    else registerAll table wanted

/-- Search for a gateway. -/
def hunt : Engine := .seq check (.seq (.hold .probes (.many .await)) check)

/-- Check some endpoints that are known. -/
def verifyKnown : Engine := .many (.hold .verification .await)

/-- Bring up a MASQUE tunnel. Its tasks go with what the caller does with it. -/
def establishMasque (k : Engine) : Engine :=
  .seq check (.hold .netstack (.hold .addressBridge (.seq check (.hold .masqueTunnel
    (.seq .await (.seq check k))))))

/-- Bring up a WireGuard tunnel. -/
def establishWg (k : Engine) : Engine :=
  .seq check (.seq (.hold .verification .await) (.seq check (.seq check
    (.hold .netstack (.hold .wgTunnel k)))))

/-- Check the exit against the policy, or only report it in the background. -/
def settle : Engine :=
  .read fun e =>
    match (e .exitLoc).bind (ExitLocation.Policy.parse (e .exitLocSecs)) with
    | some _ => io
    | none => .detach .exitReport

/-- Bind the HTTP listener, if there is an address that can be read. -/
def bindHttpProxy (k : Bool → Engine) : Engine :=
  .read fun e =>
    match envValue e .httpProxy with
    | some _ => .choose Bool fun readable => if readable then .seq io (k true) else k false
    | none => k false

/-- Wait for the end of a tunnel, and then for the tasks that are aborted. -/
def untilClosed : Engine := .seq .await (.many .await)

/-- Publish a tunnel until it ends or breaks the policy. -/
def serveTunnel (wait : Engine) : Engine :=
  .seq settle (.seq io (bindHttpProxy fun http =>
    .hold .socksServer (.seq (if http then .hold .httpProxy wait else wait)
      (.choose Bool fun closed => if closed then .ret else .err))))

/-- One MASQUE tunnel. -/
def runMasqueTunnel : Engine := establishMasque (serveTunnel untilClosed)

/-- Carry datagrams of the inner hop through the outer one. -/
def withUdpForwarder (k : Engine) : Engine :=
  .seq io (.seq io (.hold .udpForwarderUp (.hold .udpForwarderDown k)))

/-- Carry connections of the inner hop through the outer one. -/
def withTcpForwarder (k : Engine) : Engine := .seq io (.hold .tcpForwarder k)

/-- Two MASQUE tunnels, one inside of the other. Inner edges are tried in turn. -/
def runMasqueInMasque : Engine :=
  .read fun e =>
    let forwarder := if h2Enabled table e then withTcpForwarder else withUdpForwarder
    establishMasque (.seq (.many (forwarder (.attempt (establishMasque skip) skip skip)))
      (.choose Bool fun found =>
        if found then forwarder (establishMasque (serveTunnel untilClosed)) else .err))

/-- The identity of the inner hop. A new one is registered through the outer hop,
which is the upstream proxy while that lasts. -/
def goolInnerIdentity : Engine :=
  .seq check (.choose Bool fun saved =>
    if saved then skip
    else .seq io (.hold .socksServer (.choose Text fun through => .read fun e =>
      .seq (setVar .upstream ("socks5h://".toList++through)) (.seq apiCall (.seq
        (.choose Bool fun registered => if registered then apiCall else skip)
        (.seq (match e .upstream with
          | some previous => setVar .upstream previous
          | none => clearVar .upstream) (.seq check check)))))))

/-- A WireGuard tunnel inside of a MASQUE tunnel. -/
def runGoolTunnel : Engine :=
  establishMasque (.seq goolInnerIdentity (.seq check
    (.seq (.many (withUdpForwarder (.many (.attempt (establishWg skip) skip skip))))
      (.choose Bool fun found =>
        if found then withUdpForwarder (establishWg (serveTunnel untilClosed)) else .err))))

/-- The tunnel, whose end only starts the next round after a pause. -/
def reconnecting (tunnel : Engine) : Engine := .seq (.attempt tunnel skip skip) .await

/-- Keep a MASQUE tunnel up. A search that finds nothing is repeated on the other
carrier before the next round. -/
def runMasque (tunnel : Engine) : Engine :=
  .read fun e =>
    let forced := (e .peer).isSome
    .seq verifyKnown (.forever (.seq verifyKnown (.choose Bool fun known =>
      if known then reconnecting tunnel
      else if forced then .seq check (reconnecting tunnel)
      else .attempt hunt (reconnecting tunnel) (.read fun e' =>
        if h2Enabled table e' then .await
        else .seq (setVar .masqueHttp2 "1".toList)
          (.attempt hunt (reconnecting tunnel) (.seq (clearVar .masqueHttp2) .await))))))

/-- Keep two nested MASQUE tunnels up. -/
def runMim : Engine :=
  .seq check (.forever (.choose Bool fun known =>
    .attempt (if known then skip else .seq .await hunt)
      (.seq check (reconnecting (runMasqueInMasque table))) .await))

/-- One WireGuard tunnel, which runs inside of this function. -/
def runWireguardTunnel : Engine :=
  .seq check (.seq (.hold .verification .await) (.seq check (.seq check
    (.hold .netstack (serveTunnel (.hold .wgTunnel untilClosed))))))

/-- Keep a WireGuard tunnel up. -/
def runWireguard : Engine :=
  .seq check (.seq verifyKnown (.forever (.seq verifyKnown (.choose Bool fun known =>
    if known then reconnecting runWireguardTunnel
    else .seq check (.attempt hunt (reconnecting runWireguardTunnel) .await)))))

/-- Two WireGuard tunnels, one inside of the other. -/
def runWarpInWarp : Engine :=
  .seq check (establishWg (withUdpForwarder (establishWg (serveTunnel untilClosed))))

/-- Keep two nested WireGuard tunnels up. -/
def runGool : Engine :=
  .seq check (.forever (.choose Bool fun known =>
    .attempt (if known then skip else .seq .await hunt) (reconnecting runWarpInWarp) .await))

/-- Ask for the carrier of MASQUE, unless it is settled. -/
def selectMasqueTransport : Engine :=
  .read fun e =>
    if (e .masqueHttp2).isSome || (e .peer).isSome then skip
    else .seq .await (.choose Bool fun second =>
      if second then setVar .masqueHttp2 "1".toList else skip)

/-- The tunnel of a transport. -/
def runProtocol : Protocol → Engine
  | .masque =>
    .seq selectMasqueTransport (.seq (loadOrProvisionMasque table) (.seq io
      (runMasque table runMasqueTunnel)))
  | .wireGuard => .seq (loadOrProvisionWarp table) runWireguard
  | .warpInWarp =>
    .read fun e =>
      if goolClassic e then
        .seq (loadOrProvisionWarp table) (.seq (loadOrProvisionWarp table) runGool)
      else .seq selectMasqueTransport (.seq (loadOrProvisionMasque table) (.seq io
        (runMasque table runGoolTunnel)))
  | .masqueInMasque =>
    .seq selectMasqueTransport (.seq (loadOrProvisionMasque table) (.seq
      (loadOrProvisionMasque table) (.seq io (runMim table))))

/-- Start a carrier inside of the tunnel or around it. -/
def startCarrier (mode : CarrierMode) (chain : Task) (reverse : (Text → Engine) → Engine)
    (protocol : Protocol) (k : Engine) : Engine :=
  match mode with
  | .chain => .seq (.detach chain) k
  | .reverse =>
    if protocol=.wireGuard ∨ protocol=.warpInWarp then .err
    else reverse fun socks => .seq (setVar .upstream ("socks5://".toList++socks))
      (.seq (setVar .masqueHttp2 "1".toList) k)
  | .only | .off => k

/-- The run once the transport is known; the user may just have asked for a
carrier without a tunnel. -/
def runTunnel (protocol : Protocol) : Engine :=
  .read fun e =>
    if torMode table e=.only then torRunOnly
    else if psiphonMode table e=.only then psiphonRunOnly
    else startCarrier (torMode table e) .torChain torStartReverse protocol
      (.read fun e' => startCarrier (psiphonMode table e') .psiphonChain psiphonStartReverse
        protocol (runProtocol table protocol))

/-- Sign in to an organisation when the user asks for it. -/
def enrolZeroTrust : Engine :=
  .seq .await (.choose (Option Text) fun
    | none => skip
    | some team => .seq (setVar .team team) (.choose Bool fun enrolled =>
      if enrolled then skip
      else
        let signIn : Engine := .read fun e =>
          if teamScope table e=none then clearVar .team
          else .seq .await (.choose Bool fun signed =>
            if signed then skip else .seq (clearVar .team) (clearVar .accessEmail))
        .read fun e =>
          if teamScope table e=none then clearVar .team
          else if (envValue e .accessToken).isSome || (envValue e .accessEmail).isSome ||
            ((envValue e .accessClientId).isSome && (envValue e .accessClientSecret).isSome) then
            signIn
          else .seq .await (.choose (Option Text) fun
            | none => clearVar .team
            | some email => .seq (setVar .accessEmail email) signIn)))

/-- Ask which kind of nested WARP is meant. -/
def selectGool (k : Protocol → Engine) : Engine :=
  .seq .await (.choose Bool fun classic =>
    if classic then .seq (setVar .goolMode "classic".toList) (k .warpInWarp) else k .warpInWarp)

/-- Ask what carries Tor or Psiphon, and which way round. -/
def selectChain (v : Var) (k : Protocol → Engine) : Engine :=
  .seq .await (.choose Bool fun around =>
    if around then .seq (setVar v "reverse".toList) (k .masque)
    else .seq (setVar v "chain".toList) (.seq .await (.choose Protocol fun
      | .warpInWarp => selectGool k
      | protocol => k protocol)))

/-- What the user can choose when no transport is set. -/
inductive Menu where
  | protocol (p : Protocol) | torAlone | torChained | psiphonAlone | psiphonChained

/-- Ask for the transport. -/
def selectProtocol (k : Protocol → Engine) : Engine :=
  .seq (.many (.seq .await (enrolZeroTrust table))) (.seq .await (.choose Menu fun
    | .protocol .warpInWarp => selectGool k
    | .protocol p => k p
    | .torAlone => .seq (setVar .tor "only".toList) (k .masque)
    | .torChained => selectChain .tor k
    | .psiphonAlone => .seq (setVar .psiphon "only".toList) (k .masque)
    | .psiphonChained => selectChain .psiphon k))

/-- The transport: the one that is set, the one that given endpoints belong to, or
the user's choice. -/
def withProtocol (k : Protocol → Engine) : Engine :=
  .read fun e =>
    match e .protocol with
    | some value => k (Protocol.parse table value)
    | none => .choose (Option Protocol) fun
      | some .warpInWarp => k .warpInWarp
      | some .masqueInMasque => k .masqueInMasque
      | _ => if (e .peer).isSome || (e .wgPeer).isSome then k .masque else selectProtocol table k

/-- The run once nothing is to be registered: the listeners are tried, carriers
without a tunnel are started, and a tunnel is kept up. -/
def runListening : Engine :=
  .seq io (bindHttpProxy fun _ => .read fun e =>
    if torMode table e=.only then torRunOnly
    else if psiphonMode table e=.only then psiphonRunOnly
    else if torMode table e=.reverse ∧ psiphonMode table e=.reverse then .err
    else .seq check (withProtocol table (runTunnel table)))

/-- The run after the reporter has been started. -/
def runStarted : Engine :=
  .seq check (.read fun e =>
    match envValue e .register with
    | some value =>
      match RegisterSet.parse table value with
      | some wanted => registerIdentities table wanted
      | none => .err
    | none => runListening table)

/-- The engine, from its arguments on. -/
def runWith (args : List Text) : Engine :=
  .read fun e =>
    match parseArgs args e with
    | (.refused _,e') => .seq (.write fun _ => e') .err
    | (.done,e') => .seq (.write fun _ => e') .ret
    | (.run,e') =>
      .seq (.write fun _ => e') (.seq check (.seq (.detach .reporter) (runStarted table)))

end Run

end MsnGuard.AetherEngine
