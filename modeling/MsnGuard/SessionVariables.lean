import MsnGuard.EngineRuns

/-!
# The variables of one session after the other

The session runtime projects its configuration onto the variables of the engine before each
start. It writes every variable that it owns, set or removed. The engine writes some of the
others while it runs.
-/

namespace MsnGuard.SessionVariables

open ProcessEnvironments RustText AetherVariables CancellableTasks AetherEngine EngineRuns Option

variable {v : Var} {e e' s e₀ : Env}

/-- The transports of the runtime. -/
inductive FcaeProtocol where
  | masque | wireGuard | gool | auto | tor | masqueInMasque | warpInMasque
  deriving DecidableEq

/-- How widely gateways are searched. -/
inductive FcaeScanMode where
  | turbo | balanced | thorough | stealth | ironclad

/-- How much of the machine the engine uses. -/
inductive FcaeSysProfile where
  | auto | low | medium | high

/-- How much the engine logs. -/
inductive FcaeEngineLog where
  | off | error | warn | info | debug | trace

/-- How Tor takes part. -/
inductive FcaeTorMode where
  | off | chain | reverse | only
  deriving DecidableEq

/-- The bridges of Tor. -/
inductive FcaeTorBridges where
  | none | obfs4 | snowflake | custom

/-- How the tunnel is disguised. -/
structure ObfuscationConfig where
  noizeProfile : Text := "balanced".toList
  fragmentEnabled : Bool := false
  fragSize : ℕ × ℕ := (16,32)
  fragDelay : ℕ × ℕ := (2,10)
  h2Enabled : Bool := false
  echEnabled : Bool := false

/-- The resolvers and the names of the handshakes. -/
structure DnsConfig where
  server : Option Text := none
  tlsGroups : Option Text := none
  sni : Option Text := none

/-- The rules of the routes. -/
structure RoutingConfig where
  rulesFile : Option Text := none
  direct : List Text := []
  block : List Text := []

/-- The options that only the engine has. -/
structure AetherOptions where
  echDns : Option Text := none
  echDomain : Option Text := none
  goolInner : Option Text := none
  tlsCiphers : Option Text := none
  enrollAddress : Option Text := none
  exitLoc : Option Text := none
  tlsVerify : Bool := false
  disableGrease : Bool := false
  fragmentSni : Bool := false

/-- The organisation. -/
structure ZeroTrustConfig where
  teamName : Option Text := none
  accessToken : Option Text := none
  accessEmail : Option Text := none

/-- The part that Tor takes. -/
structure TorConfig where
  httpPort : ℕ := 0
  mode : FcaeTorMode := .off
  bridges : FcaeTorBridges := .none
  bind : Option Text := none
  stateDir : Option Text := none
  bridgeLines : Option Text := none
  ptPath : Option Text := none

/-- Does Tor take part? -/
def TorConfig.isEnabled (tor : TorConfig) : Bool := decide (tor.mode≠.off)

/-- The configuration of a session, with the defaults of the runtime. -/
structure SessionConfig where
  protocol : FcaeProtocol := .masque
  scanMode : FcaeScanMode := .balanced
  ipVersion : ℤ := 4
  sysProfile : FcaeSysProfile := .auto
  lanSharing : Bool := false
  quickReconnect : Bool := true
  socksPort : ℕ := 1819
  httpPort : ℕ := 1820
  forcePeer : Option Text := none
  configPath : Text := "aether.toml".toList
  engineLog : FcaeEngineLog := .info
  obfuscation : ObfuscationConfig := {}
  dns : DnsConfig := {}
  routing : RoutingConfig := {}
  zeroTrust : ZeroTrustConfig := {}
  tor : TorConfig := {}
  aether : AetherOptions := {}

/-- The address that the listeners bind to. -/
def SessionConfig.socksBindHost (cfg : SessionConfig) : Text :=
  if cfg.lanSharing then "0.0.0.0".toList else "127.0.0.1".toList

/-- Give a variable a value, or remove it. -/
def assign (k : Var) : Option Text → Writes
  | some v => put k v
  | none => remove k

/-- Set a variable to 1, or remove it. -/
def flag (k : Var) (on : Bool) : Writes := assign k (if on then some "1".toList else none)

@[simp] theorem keys_assign (k : Var) (v : Option Text) : keys (assign k v)=[k] := by
  cases v <;> rfl

@[simp] theorem keys_flag (k : Var) (on : Bool) : keys (flag k on)=[k] := keys_assign k _

/-- Among writes to different variables an assignment decides. -/
theorem exec_assigned {k : Var} {v : Option Text} {ws : Writes} (hws : (keys ws).Nodup)
    (h : ∀ w∈assign k v, w∈ws) (e : Env) : exec ws e k=v := by
  cases v with
  | none => exact exec_of_nodup hws (h (.unset k) List.mem_cons_self) e
  | some v => exact exec_of_nodup hws (h (.set k v) List.mem_cons_self) e

section Projection

variable (cfg : SessionConfig)

/-- The name of the transport. Tor alone still wants one. -/
def protocolName : FcaeProtocol → Text
  | .masque | .auto | .tor => "masque".toList
  | .wireGuard => "wg".toList
  | .gool | .warpInMasque => "gool".toList
  | .masqueInMasque => "mim".toList

/-- The name of the search. -/
def scanName : FcaeScanMode → Text
  | .turbo => "turbo".toList
  | .balanced => "balanced".toList
  | .thorough => "thorough".toList
  | .ironclad => "ironclad".toList
  | .stealth => "verified".toList

/-- The name of the address families. -/
def ipName (version : ℤ) : Text :=
  if version=6 then "v6".toList else if version=10 then "both".toList else "v4".toList

/-- The name of the level. -/
def FcaeEngineLog.asStr : FcaeEngineLog → Text
  | .off => "off".toList
  | .error => "error".toList
  | .warn => "warn".toList
  | .info => "info".toList
  | .debug => "debug".toList
  | .trace => "trace".toList

/-- The name of the profile. -/
def profileName : FcaeSysProfile → Text
  | .low => "low".toList
  | .medium => "medium".toList
  | .high => "high".toList
  | .auto => "auto".toList

/-- The name of the mode. -/
def torName : FcaeTorMode → Text
  | .off => "off".toList
  | .chain => "chain".toList
  | .reverse => "reverse".toList
  | .only => "only".toList

/-- A flag that is written in either case. -/
def bit (on : Bool) : Text := if on then "1".toList else "0".toList

/-- An address of the listeners. -/
def listenAt (port : ℕ) : Text := cfg.socksBindHost ++ ':'::Nat.toDigits 10 port

/-- A range of numbers. -/
def range (r : ℕ × ℕ) : Text := Nat.toDigits 10 r.1 ++ '-'::Nat.toDigits 10 r.2

/-- The lines of a list, if there are any. -/
def joined (lines : List Text) : Option Text :=
  if lines.isEmpty then none else some (List.intercalate ['\n'] lines)

/-- The bridges: a family is chosen by the engine unless there are lines. -/
def bridgesValue : Option Text :=
  match cfg.tor.bridges with
  | .none => some "off".toList
  | .obfs4 | .snowflake =>
    match cfg.tor.bridgeLines.map trim with
    | some lines => if lines=[] then some "auto".toList else some lines
    | none => some "auto".toList
  | .custom => cfg.tor.bridgeLines

/-- The transport, the search and the files. -/
def transportWrites : Writes :=
  assign .protocol (some (protocolName cfg.protocol)) ++
    assign .goolMode (if cfg.protocol=.gool then some "classic".toList else none) ++
    assign .goolInner (if cfg.protocol=.warpInMasque then cfg.aether.goolInner else none) ++
    assign .scan (some (scanName cfg.scanMode))++assign .ip (some (ipName cfg.ipVersion)) ++
    assign .config (some cfg.configPath)++assign .logLevel (some cfg.engineLog.asStr) ++
    flag .stats true

/-- The listeners. Tor alone listens where the tunnel would. -/
def listenerWrites : Writes :=
  assign .socks (if cfg.tor.mode=.only then cfg.tor.bind
    else if cfg.socksPort≠0 then some (listenAt cfg cfg.socksPort) else some (listenAt cfg 0)) ++
    assign .httpProxy (if cfg.httpPort≠0 ∧ cfg.tor.mode≠.only
      then some (listenAt cfg cfg.httpPort) else none) ++
    assign .torHttpProxy none ++
    assign .torHttp (if cfg.tor.isEnabled ∧ cfg.tor.httpPort≠0
      then some (listenAt cfg cfg.tor.httpPort) else none) ++
    assign .quickReconnect (some (bit cfg.quickReconnect))

/-- The disguise. -/
def obfuscationWrites : Writes :=
  let ech := cfg.obfuscation.echEnabled
  let fragmented (v : Text) := if cfg.obfuscation.fragmentEnabled then some v else none
  assign .noize (some cfg.obfuscation.noizeProfile) ++
    assign .masqueHttp2 (some (bit cfg.obfuscation.h2Enabled)) ++
    assign .ech (if ech then some "auto".toList else none) ++
    assign .echDns (if ech then cfg.aether.echDns else none) ++
    assign .echDomain (if ech then cfg.aether.echDomain else none) ++
    assign .masqueH2Fragment (fragmented "1".toList) ++
    assign .masqueH2FragmentSize (fragmented (range cfg.obfuscation.fragSize)) ++
    assign .masqueH2FragmentDelay (fragmented (range cfg.obfuscation.fragDelay)) ++
    assign .masqueH2FragmentSni (fragmented (bit cfg.aether.fragmentSni))

/-- The resolvers, the handshakes and the endpoint. -/
def tlsWrites : Writes :=
  assign .dns cfg.dns.server++assign .tlsGroups cfg.dns.tlsGroups ++
    assign .tlsCiphers cfg.aether.tlsCiphers++flag .tlsVerify cfg.aether.tlsVerify ++
    flag .disableGrease cfg.aether.disableGrease ++
    assign .enrollAddress cfg.aether.enrollAddress++assign .exitLoc cfg.aether.exitLoc ++
    assign .sni cfg.dns.sni++assign .perfProfile (some (profileName cfg.sysProfile)) ++
    assign .peer cfg.forcePeer

/-- The routes and the organisation. -/
def routingWrites : Writes :=
  assign .routesFile cfg.routing.rulesFile++assign .routeBlock (joined cfg.routing.block) ++
    assign .routeDirect (joined cfg.routing.direct)++assign .team cfg.zeroTrust.teamName ++
    assign .accessToken cfg.zeroTrust.accessToken++assign .accessEmail cfg.zeroTrust.accessEmail

/-- Tor. -/
def torWrites : Writes :=
  let enabled (v : Option Text) := if cfg.tor.isEnabled then v else none
  assign .tor (some (torName cfg.tor.mode))++assign .torBind (enabled cfg.tor.bind) ++
    assign .torDir (enabled cfg.tor.stateDir)++assign .torPt (enabled cfg.tor.ptPath) ++
    assign .torBridges (enabled (bridgesValue cfg))

/-- The projection of a configuration. -/
def applyWrites : Writes :=
  transportWrites cfg++listenerWrites cfg++obfuscationWrites cfg++tlsWrites cfg ++
    routingWrites cfg++torWrites cfg

end Projection

/-- The variables that the projection writes. -/
def owned : List Var :=
  [.protocol,.goolMode,.goolInner,.scan,.ip,.config,.logLevel,.stats,.socks,.httpProxy,
    .torHttpProxy,.torHttp,.quickReconnect,.noize,.masqueHttp2,.ech,.echDns,.echDomain,
    .masqueH2Fragment,.masqueH2FragmentSize,.masqueH2FragmentDelay,.masqueH2FragmentSni,.dns,
    .tlsGroups,.tlsCiphers,.tlsVerify,.disableGrease,.enrollAddress,.exitLoc,.sni,.perfProfile,
    .peer,.routesFile,.routeBlock,.routeDirect,.team,.accessToken,.accessEmail,.tor,.torBind,
    .torDir,.torPt,.torBridges]

/-- The projection writes the same variables whatever the configuration is. -/
theorem keys_applyWrites (cfg : SessionConfig) : keys (applyWrites cfg)=owned := by
  simp only [applyWrites,transportWrites,listenerWrites,obfuscationWrites,tlsWrites,routingWrites,
    torWrites,keys_append,keys_assign,keys_flag]
  rfl

/-- Stretch the interval of the reporter, unless one is given. -/
def pinEngineStatsInterval (e : Env) : Env :=
  if (e .statsSecs).isNone then (Write.set .statsSecs "86400".toList).run e else e

/-- The variables with which the engine of a session is started. -/
def prepare (cfg : SessionConfig) (e : Env) : Env :=
  pinEngineStatsInterval (exec (applyWrites cfg) e)

theorem pinEngineStatsInterval_of_ne (h : v≠.statsSecs) (e : Env) :
    pinEngineStatsInterval e v=e v := by
  rw [pinEngineStatsInterval]
  split
  · rw [Write.run,Write.key,Function.update_of_ne h]
  · rfl

theorem pinEngineStatsInterval_statsSecs (e : Env) :
    pinEngineStatsInterval e .statsSecs=some ((e .statsSecs).getD "86400".toList) := by
  rw [pinEngineStatsInterval]
  cases h : e .statsSecs with
  | none => rw [isNone_none,if_pos rfl,Write.run,Write.key,Function.update_self]; rfl
  | some v => rw [isNone_some,if_neg Bool.false_ne_true,h]; rfl

/-- Pinning again changes nothing. -/
theorem pinEngineStatsInterval_of_eq (hv : e' v=pinEngineStatsInterval e v) :
    pinEngineStatsInterval e' v=pinEngineStatsInterval e v := by
  by_cases h : v=.statsSecs
  · subst h
    rw [pinEngineStatsInterval_statsSecs,hv,pinEngineStatsInterval_statsSecs,getD_some]
  · rw [pinEngineStatsInterval_of_ne h,hv]

/-- A variable that the projection does not own is the one of the process. -/
theorem prepare_of_not_mem (h : v ∉ owned) (cfg : SessionConfig) (e : Env) :
    prepare cfg e v=pinEngineStatsInterval e v := by
  have hkept : ∀ w ∉ owned, exec (applyWrites cfg) e w=e w := by
    intro w hw
    rw [←keys_applyWrites cfg] at hw
    exact exec_of_not_mem hw e
  rw [prepare]
  by_cases hstats : v=.statsSecs
  · subst hstats
    rw [pinEngineStatsInterval_statsSecs,pinEngineStatsInterval_statsSecs,hkept _ h]
  · rw [pinEngineStatsInterval_of_ne hstats,pinEngineStatsInterval_of_ne hstats,hkept v h]

/-- A variable that the projection owns is its own. -/
theorem prepare_of_mem (h : v∈owned) (cfg : SessionConfig) (e e' : Env) :
    prepare cfg e v=exec (applyWrites cfg) e' v := by
  have hstats : v≠.statsSecs := by
    rintro rfl
    exact absurd h (by decide)
  rw [prepare,pinEngineStatsInterval_of_ne hstats]
  rw [←keys_applyWrites cfg] at h
  exact exec_of_mem h e e'

/-- Two processes start a session alike exactly if they agree, up to the interval of
the reporter, in the variables that the projection does not own. -/
theorem prepare_eq_iff (cfg : SessionConfig) (e e' : Env) :
    prepare cfg e=prepare cfg e' ↔
      ∀ v ∉ owned, pinEngineStatsInterval e v=pinEngineStatsInterval e' v := by
  constructor
  · intro h v hv
    rw [←prepare_of_not_mem hv cfg,←prepare_of_not_mem hv cfg,h]
  · intro h
    funext v
    by_cases hv : v∈owned
    · rw [prepare_of_mem hv cfg e e,prepare_of_mem hv cfg e' e]
    · rw [prepare_of_not_mem hv,prepare_of_not_mem hv,h v hv]

section Owned

variable (cfg : SessionConfig) (e : Env)

/-- An assignment of the projection is what the engine finds. -/
theorem prepare_assigned {k : Var} {v : Option Text} (hk : k∈owned)
    (h : ∀ w∈assign k v, w∈applyWrites cfg) : prepare cfg e k=v := by
  have hnodup : (keys (applyWrites cfg)).Nodup := by
    rw [keys_applyWrites]
    decide
  rw [prepare_of_mem hk cfg e e]
  exact exec_assigned hnodup h e

theorem prepare_tor : prepare cfg e .tor=some (torName cfg.tor.mode) :=
  prepare_assigned cfg e (by decide) fun w hw => by
    simp only [applyWrites,torWrites,List.mem_append,hw,true_or,or_true]

theorem prepare_protocol : prepare cfg e .protocol=some (protocolName cfg.protocol) :=
  prepare_assigned cfg e (by decide) fun w hw => by
    simp only [applyWrites,transportWrites,List.mem_append,hw,true_or]

theorem prepare_goolMode :
    prepare cfg e .goolMode=if cfg.protocol=.gool then some "classic".toList else none :=
  prepare_assigned cfg e (by decide) fun w hw => by
    simp only [applyWrites,transportWrites,List.mem_append,hw,true_or,or_true]

theorem prepare_team : prepare cfg e .team=cfg.zeroTrust.teamName :=
  prepare_assigned cfg e (by decide) fun w hw => by
    simp only [applyWrites,routingWrites,List.mem_append,hw,true_or,or_true]

theorem prepare_peer : prepare cfg e .peer=cfg.forcePeer :=
  prepare_assigned cfg e (by decide) fun w hw => by
    simp only [applyWrites,tlsWrites,List.mem_append,hw,true_or,or_true]

theorem prepare_httpProxy : prepare cfg e .httpProxy=
    if cfg.httpPort≠0 ∧ cfg.tor.mode≠.only then some (listenAt cfg cfg.httpPort) else none :=
  prepare_assigned cfg e (by decide) fun w hw => by
    simp only [applyWrites,listenerWrites,List.mem_append,hw,true_or,or_true]

/-- The engine reads the peers of nested tunnels and Psiphon from the process. -/
theorem prepare_unowned {v : Var} (h : v ∉ owned) (hstats : v≠.statsSecs) :
    prepare cfg e v=e v := by
  rw [prepare_of_not_mem h,pinEngineStatsInterval_of_ne hstats]

end Owned

variable (table : CaseTable)

/-- What the engine makes of the mode of Tor. -/
def FcaeTorMode.carrier : FcaeTorMode → CarrierMode
  | .off => .off
  | .chain => .chain
  | .reverse => .reverse
  | .only => .only

theorem torMode_prepare (cfg : SessionConfig) (e : Env) :
    torMode table (prepare cfg e)=cfg.tor.mode.carrier := by
  rw [torMode,prepare_tor]
  cases cfg.tor.mode <;> rfl

theorem parse_protocolName {p : FcaeProtocol}
    (h : Protocol.parse table (protocolName p)=.warpInWarp) : p=.gool ∨ p=.warpInMasque := by
  cases p with
  | gool => exact .inl rfl
  | warpInMasque => exact .inr rfl
  | masque | auto | tor => exact absurd (h : Protocol.masque=_) Protocol.noConfusion
  | wireGuard => exact absurd (h : Protocol.wireGuard=_) Protocol.noConfusion
  | masqueInMasque => exact absurd (h : Protocol.masqueInMasque=_) Protocol.noConfusion

/-- The endpoints of two nested WireGuard tunnels. -/
def nestedPeers : List Var := [.wiwOuterPeer,.wiwInnerPeer,.wiwPeers]

/-- A session whose engine writes no variable that the projection does not own. -/
structure Calm (e₀ : Env) (cfg : SessionConfig) : Prop where
  /-- Neither Tor nor Psiphon is around the tunnel. -/
  tor : cfg.tor.mode≠.reverse
  psiphon : psiphonMode table e₀≠.reverse
  /-- There is no organisation, or its endpoint is not asked for. -/
  team : normalizeTeam table (cfg.zeroTrust.teamName.getD [])=none ∨ cfg.forcePeer≠none
  /-- WireGuard is not carried inside of MASQUE. -/
  nested : cfg.protocol=.warpInMasque → ∃ key∈nestedPeers, (envValue e₀ key).isSome

/-- The variables of a run that has only changed the carrier of MASQUE. -/
def Agrees (e s : Env) : Prop := ∀ v≠.masqueHttp2, s v=e v

theorem Agrees.refl (e : Env) : Agrees e e := fun _ _ => rfl

variable {table}

theorem Agrees.psiphonMode_eq (h : Agrees e s) : psiphonMode table s=psiphonMode table e := by
  rw [psiphonMode,psiphonMode,h .psiphon (by decide)]

theorem Agrees.torMode_eq (h : Agrees e s) : torMode table s=torMode table e := by
  rw [torMode,torMode,h .tor (by decide)]

variable {cfg : SessionConfig}

/-- A nested WARP of a calm session is the classic one. -/
theorem Calm.goolClassic (h : Calm table e₀ cfg) (hs : Agrees (prepare cfg e₀) s)
    (hp : cfg.protocol=.gool ∨ cfg.protocol=.warpInMasque) : AetherEngine.goolClassic s=true := by
  rw [AetherEngine.goolClassic,Bool.or_eq_true]
  rcases hp with hp | hp
  · left
    rw [hs .goolMode (by decide),prepare_goolMode,if_pos hp]
    decide
  · right
    obtain ⟨key,hkey,hset⟩ := h.nested hp
    have hunowned : ∀ k∈nestedPeers, k≠.masqueHttp2 ∧ k ∉ owned ∧ k≠.statsSecs := by decide
    obtain ⟨hcarrier,howned,hstats⟩ := hunowned key hkey
    have hsame : s key=e₀ key := (hs key hcarrier).trans (prepare_unowned cfg e₀ howned hstats)
    have hvalue : envValue s key=envValue e₀ key := by rw [envValue,envValue,hsame]
    exact List.any_eq_true.mpr ⟨key,hkey,hvalue ▸ hset⟩

/-- The run of a calm session changes nothing but the carrier of MASQUE. -/
theorem Calm.quiet (h : Calm table e₀ cfg) :
    Quiet table (Agrees (prepare cfg e₀)) fun _ => True where
  protocol s hs := by
    rw [hs .protocol (by decide),prepare_protocol]
    exact some_ne_none _
  torAround s hs := by
    rw [hs.torMode_eq,torMode_prepare]
    have htor := h.tor
    cases hmode : cfg.tor.mode with
    | reverse => exact absurd hmode htor
    | off | chain | only => exact CarrierMode.noConfusion
  psiphonAround s hs := by
    have hsame : psiphonMode table (prepare cfg e₀)=psiphonMode table e₀ := by
      rw [psiphonMode,psiphonMode,prepare_unowned cfg e₀ (by decide) (by decide)]
    rw [hs.psiphonMode_eq,hsame]
    exact h.psiphon
  torInside _ _ _ := trivial
  psiphonInside _ _ _ := trivial
  torAlone _ _ _ := ⟨trivial,trivial,trivial⟩
  psiphonAlone _ _ _ := trivial
  report := trivial
  carrier s x hs v hv := by rw [Function.update_of_ne hv,hs v hv]
  assigned s s' hs hteam hs' hpeer := by
    rw [teamScope,hs .team (by decide),prepare_team] at hteam
    rw [hs' .peer (by decide),prepare_peer] at hpeer
    exact absurd hpeer (h.team.resolve_left hteam)
  nested s v s' hs hv hp hs' hclassic := by
    rw [hs .protocol (by decide),prepare_protocol,some_inj] at hv
    rw [←hv] at hp
    have htrue := h.goolClassic hs' (parse_protocolName table hp)
    exact Bool.noConfusion (htrue.symm.trans hclassic)

variable (table)

/-- What a session does to the variables. -/
inductive Session (cfg : SessionConfig) (e : Env) : Env → Prop
  /-- The start fails, or is given up, before the engine runs. -/
  | unstarted : Session cfg e (prepare cfg e)
  /-- The engine runs to its end or until it is dropped. -/
  | ran {o : Outcome} {m : Machine Env Task}
      (h : Exec Task.mortal (runWith table []) ⟨prepare cfg e,[],[]⟩ o m) : Session cfg e m.store

/-- The sessions of one process. -/
inductive Sessions (e₀ : Env) : List SessionConfig → Env → Prop
  | fresh : Sessions e₀ [] e₀
  | next {past : List SessionConfig} {cfg : SessionConfig} {e e' : Env} (h : Sessions e₀ past e)
      (hsession : Session table cfg e e') : Sessions e₀ (past++[cfg]) e'

variable {table}

/-- A calm session leaves the variables that the projection does not own. -/
theorem Session.unowned_eq (h : Session table cfg e e') (hstart : prepare cfg e=prepare cfg e₀)
    (hcalm : Calm table e₀ cfg) (hv : v ∉ owned) : e' v=pinEngineStatsInterval e₀ v := by
  cases h with
  | unstarted => rw [hstart,prepare_of_not_mem hv]
  | ran hrun =>
    rw [hstart] at hrun
    have hend := hcalm.quiet.within_of_exec trivial rfl (Agrees.refl _) hrun
    have hcarrier : v≠.masqueHttp2 := by
      rintro rfl
      exact hv (by decide)
    rw [hend.store v hcarrier,prepare_of_not_mem hv]

/-- After sessions that are all calm the next one starts as it would have started in
the process as it was at first. -/
theorem prepare_eq_of_calm {e₀ e : Env} {past : List SessionConfig} (h : Sessions table e₀ past e)
    (hcalm : ∀ c∈past, Calm table e₀ c) (cfg : SessionConfig) : prepare cfg e=prepare cfg e₀ := by
  induction h generalizing cfg with
  | fresh => rfl
  | next _ hsession ih =>
    have hbefore : ∀ c∈_, Calm table e₀ c := fun c hc => hcalm c (List.mem_append_left _ hc)
    have hlast := hcalm _ (List.mem_append_right _ List.mem_cons_self)
    refine (prepare_eq_iff cfg _ e₀).mpr fun v hv => ?_
    exact pinEngineStatsInterval_of_eq (hsession.unowned_eq (ih hbefore _) hlast hv)

/-- A session with a MASQUE tunnel and without an HTTP listener, in a process in which
nothing is registered and Psiphon is off. -/
theorem Session.of_runTunnel {o : Outcome} {m : Machine Env Task} (hregister : e .register=none)
    (hpsiphon : e .psiphon=none) (hhttp : cfg.httpPort=0) (hprotocol : cfg.protocol=.masque)
    (hmode : cfg.tor.mode≠.only)
    (h : Exec Task.mortal (runTunnel table .masque) ⟨prepare cfg e,[],[.reporter]⟩ o m) :
    Session table cfg e m.store := by
  have hasked : envValue (prepare cfg e) .register=none := by
    rw [envValue,prepare_unowned cfg e (by decide) (by decide),hregister]
  have hlisten : envValue (prepare cfg e) .httpProxy=none := by
    rw [envValue,prepare_httpProxy,if_neg fun hboth => hboth.1 hhttp]
  have hoff : psiphonMode table (prepare cfg e)=.off := by
    rw [psiphonMode,prepare_unowned cfg e (by decide) (by decide),hpsiphon]
    rfl
  have hname : prepare cfg e .protocol=some "masque".toList := by
    rw [prepare_protocol,hprotocol]
    rfl
  have htor : torMode table (prepare cfg e)≠.only := by
    rw [torMode_prepare]
    cases hcase : cfg.tor.mode with
    | only => exact absurd hcase hmode
    | off | chain | reverse => exact CarrierMode.noConfusion
  exact .ran (exec_runWith rfl hasked hlisten htor hoff hname h)

/-- A session with Tor inside of the tunnel and rules for the routes. -/
def chained : SessionConfig where
  httpPort := 0
  routing := {direct := ["example.com".toList]}
  tor := {mode := .chain, bind := some "127.0.0.1:1821".toList}

/-- A session with Tor around the tunnel. -/
def carried : SessionConfig where
  httpPort := 0
  tor := {mode := .reverse, bind := some "127.0.0.1:1821".toList}

/-- A session without Tor. -/
def direct : SessionConfig where
  httpPort := 0

/-- Nothing of a session with Tor inside of the tunnel is left. -/
theorem direct_after_chained : ∃ e, Sessions .plain unsetEnv [chained] e ∧
    prepare direct e=prepare direct unsetEnv := by
  have hsession : Session .plain chained unsetEnv (prepare chained unsetEnv) :=
    .of_runTunnel rfl rfl rfl rfl (by decide)
      (exec_runTunnel_chain (torMode_prepare .plain chained unsetEnv) (by decide +kernel))
  have hcalm : ∀ c∈[chained], Calm .plain unsetEnv c := by
    intro c hc
    rw [List.mem_singleton.mp hc]
    exact ⟨by decide,by decide +kernel,.inl (by decide +kernel),FcaeProtocol.noConfusion⟩
  exact ⟨_,.next .fresh hsession,prepare_eq_of_calm (.next .fresh hsession) hcalm direct⟩

/-- The upstream proxy of a session with Tor around the tunnel is that of the next
session too, which has no Tor. -/
theorem upstream_after_carried : ∃ e, Sessions .plain unsetEnv [carried] e ∧
    prepare direct e .upstream=some "socks5://127.0.0.1:1821".toList ∧
    prepare direct unsetEnv .upstream=none := by
  have hsession : Session .plain carried unsetEnv
      (exec (aroundWrites "127.0.0.1:1821".toList) (prepare carried unsetEnv)) :=
    .of_runTunnel rfl rfl rfl rfl (by decide)
      (exec_runTunnel_reverse (torMode_prepare .plain carried unsetEnv) (by decide +kernel) _)
  refine ⟨_,.next .fresh hsession,?_,?_⟩
  · rw [prepare_unowned direct _ (by decide) (by decide)]
    decide +kernel
  · rw [prepare_unowned direct _ (by decide) (by decide)]
    rfl

end MsnGuard.SessionVariables
