import MsnGuard.CoreConfigEnv

/-!
# What an earlier connect leaves in the process

Installing the map of a connect replaces what it has and clears a fixed list, so a variable of
neither kind keeps the value of the last connect that had it.
-/

namespace MsnGuard.StaleVariables

open ProcessEnvironments KotlinText AetherVariables CoreConfigEnv
open RustText hiding trim isWhitespace

variable {v : Var}

/-- A connect, by the call that builds its map. -/
inductive Connect where
  | env (context : Context) (args : EnvArgs)
  | effective (context : Context) (overrides : Overrides) (listenOverride : Option ℤ)
      (localUdpAssociate : Bool)

/-- What the builder reads of the device. -/
def Connect.context : Connect → Context
  | .env context _ => context
  | .effective context _ _ _ => context

/-- The parameters of the builder. -/
def Connect.args : Connect → EnvArgs
  | .env _ args => args
  | .effective _ overrides listenOverride localUdpAssociate =>
    overrides.args listenOverride localUdpAssociate

/-- The endpoint that the configuration of the attempt forces. -/
def Connect.forcedPeer : Connect → Option Text
  | .env _ _ => none
  | .effective _ overrides _ _ => nonBlank overrides.forcedPeer

variable (table : CaseTable)

/-- The map of a connect. -/
def Connect.map : Connect → Settings Var Text
  | .env context args => CoreConfigEnv.env table context args
  | .effective context overrides listenOverride localUdpAssociate =>
    envFromEffectiveConfig table context overrides listenOverride localUdpAssociate

/-- Install the maps of several connects, one after the other. -/
def installAll (connects : List Connect) (e : Env) : Env :=
  connects.foldl (fun e c => applyEnv (c.map table) e) e

/-- The variables that the builder sets under some settings only and that no
install clears. -/
def uncleared : List Var :=
  [.goolMode,.httpProxy,.noize,.peer,.wgPeer,.wiwInnerPeer,.mimInnerPeer,.masqueHttp2,.masqueMtu,
    .wgMtu,.tlsGroups,.tlsCiphers,.wgNoDataCheck,.masqueSni,.masqueH2Fragment,.masqueH2FragmentSni,
    .team,.accessClientId,.accessClientSecret,.accessToken,.accessEmail,.dns,.routeBlock,.routeDirect]

/-- Do the settings of a connect give one of these variables a value? -/
def Connect.sets (c : Connect) : Var → Bool
  | .goolMode => isGool c.context c.args
  | .httpProxy => sharesHttpProxy c.context c.args
  | .noize => !isMasqueForEnv c.context c.args
  | .peer | .wgPeer =>
    c.forcedPeer.isSome || (manualEndpoint c.context c.args .manualEndpoint).isSome
  | .wiwInnerPeer | .mimInnerPeer => (manualEndpoint c.context c.args .manualInnerEndpoint).isSome
  | .masqueHttp2 => usesHttp2 c.context c.args
  | .masqueMtu => sendsMtu c.context .masque || sendsMtu c.context .wow
  | .wgMtu => sendsMtu c.context .wireguard || sendsMtu c.context .wow
  | .tlsGroups | .tlsCiphers => customTls table c.context
  | .wgNoDataCheck => !bool c.context .wireguardDataCheck true
  | .masqueSni => isMasqueForEnv c.context c.args
  | .masqueH2Fragment => isMasqueForEnv c.context c.args || fragments c.context
  | .masqueH2FragmentSni =>
    (isMasqueForEnv c.context c.args || fragments c.context) && bool c.context .mixedCaseSni false
  | .team => !isBlank (zeroTrustTeam c.context)
  | .accessClientId => !isBlank (getSecret c.context .zeroTrustClientId)
  | .accessClientSecret => !isBlank (getSecret c.context .zeroTrustClientSecret)
  | .accessToken => !isBlank (getSecret c.context .zeroTrustToken)
  | .accessEmail => !isBlank (getSecret c.context .zeroTrustEmail)
  | .dns => !isBlank (text c.context .dnsServers [])
  | .routeBlock => !isBlank (text c.context .routeBlock [])
  | .routeDirect => !isBlank (text c.context .routeDirect [])
  | _ => false

/-- The writes of the builder that do not depend on the settings. -/
def always : List Var :=
  [.config,.protocol,.socks,.scan,.ip,.stats,.statsSecs,.logLevel,.perfProfile,.quickReconnect]

/-- Everything that is written to the map of a connect. -/
def Connect.writes (c : Connect) : Writes :=
  envWrites table c.context c.args++match c.forcedPeer with
    | some peer => put .peer peer++put .wgPeer peer
    | none => []

theorem Connect.map_eq (c : Connect) : c.map table=fill (c.writes table) ∅ := by
  cases c with
  | env context args => rw [map,CoreConfigEnv.env,writes,forcedPeer,List.append_nil]; rfl
  | effective context overrides listenOverride localUdpAssociate =>
    rw [map,envFromEffectiveConfig,writes,forcedPeer]
    cases nonBlank overrides.forcedPeer with
    | none => rw [List.append_nil]; rfl
    | some peer => rw [fill_append]; rfl

theorem mem_keys_peerWrites {context : Context} {args : EnvArgs} :
    v∈keys (peerWrites context args) ↔
      (v=.peer ∨ v=.wgPeer) ∧ (manualEndpoint context args .manualEndpoint).isSome ∨
      (v=.wiwInnerPeer ∨ v=.mimInnerPeer) ∧
        (manualEndpoint context args .manualInnerEndpoint).isSome := by
  unfold peerWrites
  cases manualEndpoint context args .manualEndpoint <;>
    cases manualEndpoint context args .manualInnerEndpoint <;> simp [or_assoc]

theorem mem_keys_fragmentWrites {context : Context} {args : EnvArgs} :
    v∈keys (fragmentWrites context args) ↔ (isMasqueForEnv context args || fragments context)=true ∧
        (v=.masqueH2Fragment ∨ v=.masqueH2FragmentSni ∧ bool context .mixedCaseSni false=true) := by
  unfold fragmentWrites
  cases isMasqueForEnv context args <;> simp [and_comm]

/-- The choice of the scanner writes cleared variables, and one that is always set. -/
theorem mem_keys_scannerWrites {context : Context} {args : EnvArgs}
    (h : v∈keys (scannerWrites table context args)) : v∈clearIfAbsent ∨ v=.ip := by
  unfold scannerWrites at h
  cases hmode : warpScannerMode table context with
  | normal => simp [hmode] at h
  | ptechV4 =>
    simp [hmode] at h
    rcases h.2 with rfl | rfl | rfl | rfl <;> decide
  | ptechV6 =>
    simp [hmode] at h
    rcases h.2 with rfl | rfl | rfl | rfl | rfl <;> decide

/-- Everything about the upstream proxy and hidden server names is cleared. -/
theorem mem_keys_upstreamWrites {context : Context} {args : EnvArgs}
    (h : v∈keys (upstreamWrites table context args)) : v∈clearIfAbsent := by
  unfold upstreamWrites at h
  split at h
  · cases hchoice : echChoice table context args <;>
      simp [hchoice,putNonEmpty] at h <;> grind [clearIfAbsent]
  · simp [removeEch] at h
    grind [clearIfAbsent]

theorem mem_removed_upstreamWrites {context : Context} {args : EnvArgs}
    (h : v∈removed (upstreamWrites table context args)) : v∈clearIfAbsent := by
  unfold upstreamWrites at h
  split at h
  · cases hchoice : echChoice table context args <;> simp [hchoice,putNonEmpty] at h
  · simp [removeEch] at h
    grind [clearIfAbsent]

theorem removed_scannerWrites {context : Context} {args : EnvArgs} :
    v ∉ removed (scannerWrites table context args) := by
  unfold scannerWrites
  cases warpScannerMode table context <;> simp

theorem removed_peerWrites {context : Context} {args : EnvArgs} :
    removed (peerWrites context args)=[] := by
  unfold peerWrites
  cases manualEndpoint context args .manualEndpoint <;>
    cases manualEndpoint context args .manualInnerEndpoint <;> simp

theorem removed_fragmentWrites {context : Context} {args : EnvArgs} :
    v ∉ removed (fragmentWrites context args) := by
  unfold fragmentWrites
  cases isMasqueForEnv context args <;> simp

/-- The builder takes only cleared variables out of its map again. -/
theorem mem_removed_envWrites {context : Context} {args : EnvArgs}
    (h : v∈removed (envWrites table context args)) : v∈clearIfAbsent := by
  simp only [envWrites,removed_append,List.mem_append,removed_scannerWrites,removed_peerWrites,
    removed_fragmentWrites,protocolWrites,listenerWrites,scanWrites,transportWrites,tlsWrites,
    reportWrites,removeEch,zeroTrustWrites,routingWrites,putNonBlank,mem_removed_onlyIf,
    removed_put,removed_remove,List.mem_singleton,List.not_mem_nil,and_false,or_false,false_or] at h
  rcases h with h | h
  · exact mem_removed_upstreamWrites table h
  · simp [clearIfAbsent]
    tauto

variable {c : Connect}

theorem mem_keys_forced :
    v∈keys (match c.forcedPeer with
      | some peer => put .peer peer++put .wgPeer peer
      | none => []) ↔ c.forcedPeer.isSome ∧ (v=.peer ∨ v=.wgPeer) := by
  cases c.forcedPeer <;> simp

theorem removed_forced :
    removed (match c.forcedPeer with
      | some peer => put .peer peer++put .wgPeer peer
      | none => [])=[] := by
  cases c.forcedPeer <;> rfl

/-- What the settings say about a variable is what the builder does with it. -/
theorem Connect.mem_keys_writes (h : v ∉ clearIfAbsent) :
    v∈keys (c.writes table) ↔ v∈always ∨ c.sets table v=true := by
  have hupstream : v ∉ keys (upstreamWrites table c.context c.args) := fun hmem =>
    h (mem_keys_upstreamWrites table hmem)
  by_cases hip : v=.ip
  · simp [hip,always,writes,envWrites,scanWrites]
  · have hscanner : v ∉ keys (scannerWrites table c.context c.args) := fun hmem =>
      hip ((mem_keys_scannerWrites table hmem).resolve_left h)
    simp only [writes,mem_keys_forced,envWrites,keys_append,List.mem_append,hupstream,hscanner,
      or_false,mem_keys_peerWrites,mem_keys_fragmentWrites,protocolWrites,listenerWrites,scanWrites,
      transportWrites,tlsWrites,reportWrites,removeEch,zeroTrustWrites,routingWrites,putNonBlank,
      mem_keys_onlyIf,keys_put,keys_remove,List.mem_singleton]
    -- every variable that is not cleared is one of the fixed or of the conditional ones
    cases v <;> simp [always,sets,clearIfAbsent] at h ⊢ <;> tauto

/-- A variable that no install clears is in the map of a connect exactly if it is
always there or the settings give it a value. -/
theorem Connect.mem_map (h : v ∉ clearIfAbsent) :
    v∈c.map table ↔ v∈always ∨ c.sets table v=true := by
  have hremoved : v ∉ removed (c.writes table) := by
    rw [writes,removed_append,removed_forced,List.append_nil]
    exact fun hmem => h (mem_removed_envWrites table hmem)
  rw [c.map_eq,mem_fill_empty hremoved,c.mem_keys_writes table h]

theorem mem_keys_applyWrites {map : Settings Var Text} :
    v∈keys (applyWrites map) ↔ v∈map ∨ v∈clearIfAbsent := by
  rw [applyWrites,keys_append,List.mem_append,mem_keys_setAll,keys_unsetAll,List.mem_filter,
    decide_eq_true_iff]
  tauto

/-- A variable that no install clears is set after some connects exactly if it was
set before or one of them has it. -/
theorem installAll_isSome (h : v ∉ clearIfAbsent) (connects : List Connect) (e : Env) :
    (installAll table connects e v).isSome ↔ (∃ c∈connects, v∈c.map table) ∨ (e v).isSome := by
  induction connects generalizing e with
  | nil => simp [installAll]
  | cons c rest ih =>
    have hstep : (applyEnv (c.map table) e v).isSome ↔ v∈c.map table ∨ (e v).isSome := by
      have hremoved : v ∉ removed (applyWrites (c.map table)) := by
        simp [applyWrites,removed_append,removed_setAll,removed_unsetAll,h]
      rw [applyEnv,exec_isSome hremoved,mem_keys_applyWrites]
      tauto
    have htail := ih (applyEnv (c.map table) e)
    rw [hstep] at htail
    simp only [List.mem_cons,exists_eq_or_imp]
    rw [or_comm (a := v∈c.map table),or_assoc]
    exact htail

theorem uncleared_conditional : ∀ v∈uncleared, v ∉ clearIfAbsent ∧ v ∉ always := by decide

/-- Only the conditional variables depend on the settings. -/
theorem Connect.mem_uncleared (h : c.sets table v=true) : v∈uncleared := by
  cases v <;> simp [sets] at h <;> simp [uncleared]

/-- A sequence of connects leaves the environment that its last connect leaves in a
fresh process exactly if that connect sets every variable of the conditional and
uncleared ones that an earlier one has set. -/
theorem connects_forgotten_iff (earlier : List Connect) (last : Connect) :
    installAll table (earlier++[last]) unsetEnv=installAll table [last] unsetEnv ↔
      ∀ v∈uncleared, ∀ c∈earlier, c.sets table v=true → last.sets table v=true := by
  have hsplit : installAll table (earlier++[last]) unsetEnv=
      applyEnv (last.map table) (installAll table earlier unsetEnv) := List.foldl_append
  have hkey : ∀ v, v ∉ clearIfAbsent →
      (installAll table earlier unsetEnv v=none ↔ ∀ c∈earlier, v ∉ c.map table) := by
    intro v hv
    have hset := installAll_isSome table hv earlier unsetEnv
    rw [←Option.not_isSome_iff_eq_none,hset]
    simp [unsetEnv]
  rw [hsplit]
  change exec _ _=exec _ _ ↔ _
  rw [exec_eq_exec_iff]
  constructor
  · intro h v hv c hc hset
    obtain ⟨hclear,halways⟩ := uncleared_conditional v hv
    by_contra hlast
    have hmap : v ∉ last.map table := by
      rw [last.mem_map table hclear]
      exact not_or.mpr ⟨halways,hlast⟩
    have hunwritten : v ∉ keys (applyWrites (last.map table)) := by
      rw [mem_keys_applyWrites]
      exact not_or.mpr ⟨hmap,hclear⟩
    have hnone := (hkey v hclear).mp (h v hunwritten) c hc
    exact hnone ((c.mem_map table hclear).mpr (.inr hset))
  · intro h v hv
    rw [mem_keys_applyWrites,not_or] at hv
    obtain ⟨hmap,hclear⟩ := hv
    rw [last.mem_map table hclear,not_or] at hmap
    obtain ⟨halways,hlast⟩ := hmap
    refine (hkey v hclear).mpr fun c hc hmem => ?_
    have hset := ((c.mem_map table hclear).mp hmem).resolve_left halways
    exact hlast (h v (c.mem_uncleared table hset) c hc hset)

/-- A device on which nothing is stored. -/
def freshContext : Context where
  getString _ := none
  getBoolean _ := none
  getInt _ := none
  decrypted _ := none
  filesDir := "/data/user/0/com.msnguard.vpn/files".toList
  freshApiEch := none
  sessionValue _ := none

/-- A connect whose attempt forces an endpoint, or one that forces none. -/
def forcing (forcedPeer : Text) : Connect :=
  .effective freshContext ⟨"wireguard".toList,forcedPeer,[]⟩ none false

/-- The endpoint that one attempt forced is still there in the next one, which
forces none. -/
theorem forced_peer_survives :
    installAll CaseTable.plain [forcing "162.159.192.1:2408".toList,forcing []] unsetEnv .wgPeer=
        some "162.159.192.1:2408".toList ∧
      installAll CaseTable.plain [forcing []] unsetEnv .wgPeer=none := by
  constructor <;> decide +kernel

end MsnGuard.StaleVariables
