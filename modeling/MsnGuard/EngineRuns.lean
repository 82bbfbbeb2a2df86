import MsnGuard.AetherEngine

/-!
# What a run of the engine can write and leave

A property of the variables that names the modes of Tor and Psiphon and the transport rules out
whole branches of a run. If the writes and the tasks of the other branches agree with it, it
holds at the end of every run, wherever the run is dropped.
-/

namespace MsnGuard.EngineRuns

open ProcessEnvironments RustText AetherVariables AetherArguments CancellableTasks AetherEngine

variable (table : CaseTable)
variable {k tunnel : Engine}

/-- The property does not depend on a variable. -/
def Free (inv : Env → Prop) (k : Var) : Prop :=
  ∀ s x, inv s → inv (Function.update s k x)

/-- A property of the variables and a kind of tasks that a run keeps to. -/
structure Quiet (inv : Env → Prop) (allowed : Task → Prop) : Prop where
  /-- The transport is set, so the user is never asked for it. -/
  protocol : ∀ s, inv s → s .protocol≠none
  /-- Nothing is carried around the tunnel. -/
  torAround : ∀ s, inv s → torMode table s≠.reverse
  psiphonAround : ∀ s, inv s → psiphonMode table s≠.reverse
  /-- A carrier inside of the tunnel has a task of its own. -/
  torInside : ∀ s, inv s → torMode table s=.chain → allowed .torChain
  psiphonInside : ∀ s, inv s → psiphonMode table s=.chain → allowed .psiphonChain
  /-- A carrier without a tunnel leaves its own tasks. -/
  torAlone : ∀ s, inv s → torMode table s=.only →
    allowed .announceExit ∧ allowed .torHttp ∧ allowed .dnsLookup
  psiphonAlone : ∀ s, inv s → psiphonMode table s=.only → allowed .announceExit
  /-- A tunnel reports its exit. -/
  report : allowed .exitReport
  /-- The carrier of MASQUE changes. -/
  carrier : Free inv .masqueHttp2
  /-- An organisation assigns an endpoint, unless one is given. -/
  assigned : ∀ s s', inv s → teamScope table s≠none → inv s' → s' .peer=none →
    Free inv .teamEndpoint
  /-- The inner identity of WireGuard inside of MASQUE is registered through the outer hop. -/
  nested : ∀ s v s', inv s → s .protocol=some v → Protocol.parse table v=.warpInWarp →
    inv s' → goolClassic s'=false → Free inv .upstream

variable {inv : Env → Prop} {allowed : Task → Prop} {table}

theorem keeps_skip : Keeps inv allowed (skip : Engine) := fun _ hs => hs

theorem keeps_check : Keeps inv allowed check := by
  refine keeps_choose fun fine => ?_
  cases fine
  · trivial
  · exact keeps_skip

theorem keeps_io : Keeps inv allowed io := ⟨trivial,keeps_check⟩

theorem keeps_apiCall : Keeps inv allowed apiCall := trivial

theorem keeps_setVar {k : Var} (h : Free inv k) (v : Text) : Keeps inv allowed (setVar k v) :=
  fun s hs => h s (some v) hs

theorem keeps_clearVar {k : Var} (h : Free inv k) : Keeps inv allowed (clearVar k) :=
  fun s hs => h s none hs

theorem keeps_torStart : Keeps inv allowed torStart := ⟨keeps_io,trivial,keeps_check⟩

theorem keeps_serveConnector (h : allowed .dnsLookup) : Keeps inv allowed serveConnector := by
  refine ⟨trivial,keeps_choose fun answer => ?_⟩
  rcases answer with _ | ⟨_ | _⟩
  · exact keeps_skip
  · trivial
  · exact h

theorem keeps_torRunOnly
    (h : allowed .announceExit ∧ allowed .torHttp ∧ allowed .dnsLookup) :
    Keeps inv allowed torRunOnly := by
  have hserve : Keeps inv allowed serveConnector := keeps_serveConnector h.2.2
  refine ⟨keeps_torStart,h.1,keeps_read fun s _ => ?_⟩
  split
  · refine keeps_choose fun readable => ?_
    cases readable
    · exact hserve
    · exact ⟨keeps_io,h.2.1,hserve⟩
  · exact hserve

theorem keeps_psiphonRunOnly (h : allowed .announceExit) : Keeps inv allowed psiphonRunOnly :=
  ⟨keeps_check,trivial,keeps_check,h,trivial,trivial⟩

theorem keeps_hunt : Keeps inv allowed hunt := ⟨keeps_check,trivial,keeps_check⟩

theorem keeps_establishMasque (hk : Keeps inv allowed k) : Keeps inv allowed (establishMasque k) :=
  ⟨keeps_check,keeps_check,trivial,keeps_check,hk⟩

theorem keeps_establishWg (hk : Keeps inv allowed k) : Keeps inv allowed (establishWg k) :=
  ⟨keeps_check,trivial,keeps_check,keeps_check,hk⟩

theorem keeps_withUdpForwarder (hk : Keeps inv allowed k) :
    Keeps inv allowed (withUdpForwarder k) := ⟨keeps_io,keeps_io,hk⟩

theorem keeps_withTcpForwarder (hk : Keeps inv allowed k) :
    Keeps inv allowed (withTcpForwarder k) := ⟨keeps_io,hk⟩

theorem keeps_bindHttpProxy {k : Bool → Engine} (hk : ∀ http, Keeps inv allowed (k http)) :
    Keeps inv allowed (bindHttpProxy k) := by
  refine keeps_read fun s _ => ?_
  cases envValue s .httpProxy with
  | none => exact hk false
  | some _ =>
    refine keeps_choose fun readable => ?_
    cases readable
    · exact hk false
    · exact ⟨keeps_io,hk true⟩

theorem keeps_settle (h : allowed .exitReport) : Keeps inv allowed settle := by
  refine keeps_read fun s _ => ?_
  cases (s .exitLoc).bind (ExitLocation.Policy.parse (s .exitLocSecs)) with
  | none => exact h
  | some _ => exact keeps_io

theorem keeps_serveTunnel {wait : Engine} (h : allowed .exitReport) (hw : Keeps inv allowed wait) :
    Keeps inv allowed (serveTunnel wait) := by
  refine ⟨keeps_settle h,keeps_io,keeps_bindHttpProxy fun http => ⟨?_,keeps_choose fun closed => ?_⟩⟩
  · cases http <;> exact hw
  · cases closed <;> trivial

theorem keeps_untilClosed : Keeps inv allowed untilClosed := ⟨trivial,trivial⟩

theorem keeps_reconnecting (h : Keeps inv allowed tunnel) :
    Keeps inv allowed (reconnecting tunnel) := ⟨⟨h,keeps_skip,keeps_skip⟩,trivial⟩

theorem keeps_runMasqueTunnel (h : allowed .exitReport) : Keeps inv allowed runMasqueTunnel :=
  keeps_establishMasque (keeps_serveTunnel h keeps_untilClosed)

theorem keeps_runMasqueInMasque (h : allowed .exitReport) :
    Keeps inv allowed (runMasqueInMasque table) := by
  refine keeps_read fun s _ => ?_
  have hforwarder : ∀ k : Engine, Keeps inv allowed k →
      Keeps inv allowed ((if h2Enabled table s then withTcpForwarder else withUdpForwarder) k) := by
    intro k hk
    split
    · exact keeps_withTcpForwarder hk
    · exact keeps_withUdpForwarder hk
  refine keeps_establishMasque ⟨hforwarder _ ⟨keeps_establishMasque keeps_skip,keeps_skip,
    keeps_skip⟩,keeps_choose fun found => ?_⟩
  cases found
  · trivial
  · exact hforwarder _ (keeps_establishMasque (keeps_serveTunnel h keeps_untilClosed))

theorem keeps_goolInnerIdentity (h : Free inv .upstream) : Keeps inv allowed goolInnerIdentity := by
  refine ⟨keeps_check,keeps_choose fun saved => ?_⟩
  cases saved
  · refine ⟨keeps_io,keeps_choose fun through => keeps_read fun s _ => ⟨keeps_setVar h _,
      keeps_apiCall,keeps_choose fun registered => ?_,?_,keeps_check,keeps_check⟩⟩
    · cases registered
      · exact keeps_skip
      · exact keeps_apiCall
    · cases s .upstream with
      | none => exact keeps_clearVar h
      | some previous => exact keeps_setVar h previous
  · exact keeps_skip

theorem keeps_runGoolTunnel (h : allowed .exitReport) (hup : Free inv .upstream) :
    Keeps inv allowed runGoolTunnel := by
  refine keeps_establishMasque ⟨keeps_goolInnerIdentity hup,keeps_check,keeps_withUdpForwarder
    ⟨keeps_establishWg keeps_skip,keeps_skip,keeps_skip⟩,keeps_choose fun found => ?_⟩
  cases found
  · trivial
  · exact keeps_withUdpForwarder (keeps_establishWg (keeps_serveTunnel h keeps_untilClosed))

theorem keeps_runMasque (hcarrier : Free inv .masqueHttp2) (h : Keeps inv allowed tunnel) :
    Keeps inv allowed (runMasque table tunnel) := by
  have hround := keeps_reconnecting h
  refine keeps_read fun s _ => ⟨trivial,trivial,keeps_choose fun known => ?_⟩
  cases known
  · by_cases hforced : (s .peer).isSome=true
    · simp only [hforced,Bool.false_eq_true,if_false,if_true]
      exact ⟨keeps_check,hround⟩
    · simp only [hforced,Bool.false_eq_true,if_false]
      refine ⟨keeps_hunt,hround,keeps_read fun s' _ => ?_⟩
      split
      · trivial
      · exact ⟨keeps_setVar hcarrier _,keeps_hunt,hround,keeps_clearVar hcarrier,trivial⟩
  · exact hround

theorem keeps_runMim (h : allowed .exitReport) : Keeps inv allowed (runMim table) := by
  refine ⟨keeps_check,keeps_choose fun known => ⟨?_,⟨keeps_check,keeps_reconnecting
    (keeps_runMasqueInMasque h)⟩,trivial⟩⟩
  cases known
  · exact ⟨trivial,keeps_hunt⟩
  · exact keeps_skip

theorem keeps_runWireguard (h : allowed .exitReport) : Keeps inv allowed runWireguard := by
  have hround : Keeps inv allowed (reconnecting runWireguardTunnel) :=
    keeps_reconnecting
      ⟨keeps_check,trivial,keeps_check,keeps_check,keeps_serveTunnel h keeps_untilClosed⟩
  refine ⟨keeps_check,trivial,trivial,keeps_choose fun known => ?_⟩
  cases known
  · exact ⟨keeps_check,keeps_hunt,hround,trivial⟩
  · exact hround

theorem keeps_runGool (h : allowed .exitReport) : Keeps inv allowed runGool := by
  have htunnel : Keeps inv allowed runWarpInWarp :=
    ⟨keeps_check,keeps_establishWg (keeps_withUdpForwarder (keeps_establishWg
      (keeps_serveTunnel h keeps_untilClosed)))⟩
  refine ⟨keeps_check,keeps_choose fun known => ⟨?_,keeps_reconnecting htunnel,trivial⟩⟩
  cases known
  · exact ⟨trivial,keeps_hunt⟩
  · exact keeps_skip

theorem keeps_selectMasqueTransport (hcarrier : Free inv .masqueHttp2) :
    Keeps inv allowed selectMasqueTransport := by
  refine keeps_read fun s _ => ?_
  split
  · exact keeps_skip
  · refine ⟨trivial,keeps_choose fun second => ?_⟩
    cases second
    · exact keeps_skip
    · exact keeps_setVar hcarrier _

section Quiet

variable (h : Quiet table inv allowed)
include h

theorem Quiet.keeps_adoptTeamProfile : Keeps inv allowed (adoptTeamProfile table) := by
  refine keeps_read fun s hs => ?_
  split
  · exact keeps_skip
  · rename_i hteam
    refine ⟨keeps_apiCall,keeps_read fun s' hs' => ?_⟩
    split
    · rename_i hpeer
      refine keeps_choose fun answer => ?_
      cases answer with
      | none => exact keeps_skip
      | some assigned => exact keeps_setVar (h.assigned s s' hs hteam hs' hpeer) _
    · exact keeps_skip

theorem Quiet.keeps_provisionWarp : Keeps inv allowed (provisionWarp table) :=
  ⟨keeps_apiCall,keeps_check,h.keeps_adoptTeamProfile,keeps_check⟩

theorem Quiet.keeps_loadOrProvisionWarp : Keeps inv allowed (loadOrProvisionWarp table) := by
  refine ⟨keeps_check,keeps_choose fun saved => ?_⟩
  cases saved
  · exact h.keeps_provisionWarp
  · refine ⟨h.keeps_adoptTeamProfile,keeps_choose fun verdict => ?_⟩
    rcases verdict with _ | ⟨_ | _⟩
    · exact keeps_skip
    · exact h.keeps_provisionWarp
    · exact keeps_check

theorem Quiet.keeps_provisionMasque : Keeps inv allowed (provisionMasque table) :=
  ⟨keeps_apiCall,keeps_check,keeps_apiCall,keeps_check,h.keeps_adoptTeamProfile,keeps_apiCall,
    keeps_check,keeps_check⟩

theorem Quiet.keeps_loadOrProvisionMasque : Keeps inv allowed (loadOrProvisionMasque table) := by
  refine ⟨keeps_check,keeps_choose fun saved => ?_⟩
  rcases saved with _ | certified
  · exact h.keeps_provisionMasque
  · refine ⟨?_,keeps_choose fun verdict => ?_⟩
    · cases certified
      · exact keeps_apiCall
      · exact h.keeps_adoptTeamProfile
    · rcases verdict with _ | ⟨_ | _⟩
      · exact keeps_skip
      · exact h.keeps_provisionMasque
      · exact keeps_check

theorem Quiet.keeps_registerIdentities (wanted : RegisterSet) :
    Keeps inv allowed (registerIdentities table wanted) := by
  have hasked : ∀ (asked : Bool) (p : Engine), Keeps inv allowed p →
      Keeps inv allowed (if asked then p else skip) := by
    intro asked p hp
    cases asked
    · exact keeps_skip
    · exact hp
  refine keeps_read fun s hs => ?_
  rw [if_neg (h.torAround s hs),if_neg (h.psiphonAround s hs)]
  exact ⟨hasked _ _ h.keeps_loadOrProvisionWarp,hasked _ _ h.keeps_loadOrProvisionWarp,
    hasked _ _ h.keeps_loadOrProvisionMasque,hasked _ _ h.keeps_loadOrProvisionMasque⟩

/-- The tunnel of the transport that is set. -/
theorem Quiet.keeps_runProtocol {s : Env} {v : Text} (hs : inv s) (hv : s .protocol=some v) :
    Keeps inv allowed (runProtocol table (Protocol.parse table v)) := by
  cases hp : Protocol.parse table v with
  | masque =>
    exact ⟨keeps_selectMasqueTransport h.carrier,h.keeps_loadOrProvisionMasque,keeps_io,
      keeps_runMasque h.carrier (keeps_runMasqueTunnel h.report)⟩
  | wireGuard => exact ⟨h.keeps_loadOrProvisionWarp,keeps_runWireguard h.report⟩
  | warpInWarp =>
    refine keeps_read fun s' hs' => ?_
    split
    · exact ⟨h.keeps_loadOrProvisionWarp,h.keeps_loadOrProvisionWarp,keeps_runGool h.report⟩
    · rename_i hclassic
      have hup := h.nested s v s' hs hv hp hs' (Bool.not_eq_true _ ▸ hclassic)
      exact ⟨keeps_selectMasqueTransport h.carrier,h.keeps_loadOrProvisionMasque,keeps_io,
        keeps_runMasque h.carrier (keeps_runGoolTunnel h.report hup)⟩
  | masqueInMasque =>
    exact ⟨keeps_selectMasqueTransport h.carrier,h.keeps_loadOrProvisionMasque,
      h.keeps_loadOrProvisionMasque,keeps_io,keeps_runMim h.report⟩

end Quiet

/-- A carrier that is not around the tunnel is started or left out. -/
theorem keeps_startCarrier {mode : CarrierMode} {chain : Task} {reverse : (Text → Engine) → Engine}
    {protocol : Protocol} (hmode : mode≠.reverse) (hchain : mode=.chain → allowed chain)
    (hk : Keeps inv allowed k) :
    Keeps inv allowed (startCarrier mode chain reverse protocol k) := by
  cases mode with
  | off | only => exact hk
  | chain => exact ⟨hchain rfl,hk⟩
  | reverse => exact absurd rfl hmode

/-- What follows the arguments in a run. -/
theorem exec_started {args : List Text} {e e' : Env} {o : Outcome} {m : Machine Env Task}
    (hargs : parseArgs args e=(.run,e'))
    (h : Exec Task.mortal (runWith table args) ⟨e,[],[]⟩ o m) :
    Exec Task.mortal (.seq check (.seq (.detach .reporter) (runStarted table))) ⟨e',[],[]⟩ o m := by
  cases h with
  | read h =>
    dsimp only at h
    rw [hargs] at h
    cases h with
    | seqNext hwrite hrest =>
      cases hwrite
      exact hrest
    | seqStop hwrite ho =>
      cases hwrite
      exact absurd rfl ho

section Quiet

variable (h : Quiet table inv allowed)
include h

theorem Quiet.keeps_runTunnel {s : Env} {v : Text} (hs : inv s) (hv : s .protocol=some v) :
    Keeps inv allowed (runTunnel table (Protocol.parse table v)) := by
  refine keeps_read fun s₁ hs₁ => ?_
  split
  · exact keeps_torRunOnly (h.torAlone s₁ hs₁ ‹_›)
  split
  · exact keeps_psiphonRunOnly (h.psiphonAlone s₁ hs₁ ‹_›)
  · refine keeps_startCarrier (h.torAround s₁ hs₁) (h.torInside s₁ hs₁) (keeps_read fun s₂ hs₂ => ?_)
    exact keeps_startCarrier (h.psiphonAround s₂ hs₂) (h.psiphonInside s₂ hs₂)
      (h.keeps_runProtocol hs hv)

theorem Quiet.keeps_runListening : Keeps inv allowed (runListening table) := by
  refine ⟨keeps_io,keeps_bindHttpProxy fun _ => keeps_read fun s hs => ?_⟩
  split
  · exact keeps_torRunOnly (h.torAlone s hs ‹_›)
  split
  · exact keeps_psiphonRunOnly (h.psiphonAlone s hs ‹_›)
  split
  · trivial
  · refine ⟨keeps_check,keeps_read fun s' hs' => ?_⟩
    cases hv : s' .protocol with
    | none => exact absurd hv (h.protocol s' hs')
    | some v => exact h.keeps_runTunnel hs' hv

/-- A quiet property is kept by the whole run. -/
theorem Quiet.keeps_runStarted : Keeps inv allowed (runStarted table) := by
  refine ⟨keeps_check,keeps_read fun s _ => ?_⟩
  cases envValue s .register with
  | none => exact h.keeps_runListening
  | some value =>
    dsimp only
    cases RegisterSet.parse table value with
    | none => trivial
    | some wanted => exact h.keeps_registerIdentities wanted

/-- Every run that begins in a quiet property ends in it, wherever it is dropped. -/
theorem Quiet.within_of_exec (hreporter : allowed .reporter) {args : List Text} {e e' : Env}
    {o : Outcome} {m : Machine Env Task} (hargs : parseArgs args e=(.run,e')) (he' : inv e')
    (hrun : Exec Task.mortal (runWith table args) ⟨e,[],[]⟩ o m) : Within inv allowed m := by
  have hkeeps : Keeps inv allowed (.seq check (.seq (.detach .reporter) (runStarted table))) :=
    ⟨keeps_check,hreporter,h.keeps_runStarted⟩
  exact (exec_started hargs hrun).keeps hkeeps (.start _ he' [])

end Quiet

section Reach

variable {m : Machine Env Task} {o : Outcome}

/-- What can fail can go well. -/
theorem exec_check (m : Machine Env Task) : Exec Task.mortal check m .next m :=
  .choose true (.write id m)

theorem exec_io (m : Machine Env Task) : Exec Task.mortal io m .next m :=
  .seqNext (.pass (Ended.refl _ _)) (exec_check m)

theorem exec_torStart (m : Machine Env Task) : Exec Task.mortal torStart m .next m :=
  .seqNext (exec_io m) (.seqNext (.hold (.manyDone _ _)) (exec_check m))

/-- A run with a transport and without a registration comes to its tunnel, with
nothing but the reporter running. -/
theorem exec_runWith {args : List Text} {e e' : Env} {v : Text}
    (hargs : parseArgs args e=(.run,e')) (hregister : envValue e' .register=none)
    (hhttp : envValue e' .httpProxy=none) (htor : torMode table e'≠.only)
    (hpsiphon : psiphonMode table e'=.off) (hv : e' .protocol=some v)
    (h : Exec Task.mortal (runTunnel table (Protocol.parse table v)) ⟨e',[],[.reporter]⟩ o m) :
    Exec Task.mortal (runWith table args) ⟨e,[],[]⟩ o m := by
  have htunnel : Exec Task.mortal (withProtocol table (runTunnel table)) ⟨e',[],[.reporter]⟩ o m := by
    refine .read ?_
    dsimp only
    rwa [hv]
  have hlisten : Exec Task.mortal (runListening table) ⟨e',[],[.reporter]⟩ o m := by
    refine .seqNext (exec_io _) (.read ?_)
    dsimp only
    rw [hhttp]
    refine .read ?_
    dsimp only
    rw [if_neg htor,hpsiphon,if_neg CarrierMode.noConfusion,
      if_neg fun hboth => CarrierMode.noConfusion hboth.2]
    exact .seqNext (exec_check _) htunnel
  have hstarted : Exec Task.mortal (runStarted table) ⟨e',[],[.reporter]⟩ o m := by
    refine .seqNext (exec_check _) (.read ?_)
    dsimp only
    rwa [hregister]
  refine .read ?_
  dsimp only
  rw [hargs]
  exact .seqNext (.write _ _) (.seqNext (exec_check _) (.seqNext (.detach _ _) hstarted))

/-- The carrier of MASQUE can stay as it is. -/
theorem exec_selectMasqueTransport (m : Machine Env Task) :
    Exec Task.mortal selectMasqueTransport m .next m := by
  refine .read ?_
  split
  · exact .write id m
  · exact .seqNext (.pass (Ended.refl _ _)) (.choose false (.write id m))

/-- A MASQUE tunnel can be interrupted before it is there, while a new identity is registered. -/
theorem exec_runProtocol_masque (m : Machine Env Task) :
    Exec Task.mortal (runProtocol table .masque) m .cut m := by
  have hcall : Exec Task.mortal apiCall m .cut m :=
    .hold (.manyStop (.cut (Ended.refl _ _)) Outcome.noConfusion)
  have hload : Exec Task.mortal (loadOrProvisionMasque table) m .cut m :=
    .seqNext (exec_check m) (.choose none (.seqStop hcall Outcome.noConfusion))
  exact .seqNext (exec_selectMasqueTransport m) (.seqStop hload Outcome.noConfusion)

/-- Tor inside of a MASQUE tunnel is running when the tunnel is interrupted. -/
theorem exec_runTunnel_chain {e : Env} {l : List Task} (htor : torMode table e=.chain)
    (hpsiphon : psiphonMode table e=.off) :
    Exec Task.mortal (runTunnel table .masque) ⟨e,[],l⟩ .cut ⟨e,[],.torChain::l⟩ := by
  refine .read ?_
  rw [htor,hpsiphon,if_neg CarrierMode.noConfusion,if_neg CarrierMode.noConfusion]
  refine .seqNext (.detach _ _) (.read ?_)
  rw [hpsiphon]
  exact exec_runProtocol_masque _

/-- What a carrier around the tunnel sets. -/
def aroundWrites (socks : Text) : Writes :=
  put .upstream ("socks5://".toList++socks)++put .masqueHttp2 "1".toList

/-- Tor around a MASQUE tunnel is the upstream proxy when the tunnel is interrupted. -/
theorem exec_runTunnel_reverse {e : Env} {l : List Task} (htor : torMode table e=.reverse)
    (hpsiphon : psiphonMode table e=.off) (socks : Text) :
    Exec Task.mortal (runTunnel table .masque) ⟨e,[],l⟩ .cut
      ⟨exec (aroundWrites socks) e,[],.torReverse::.announceExit::l⟩ := by
  have hkept : exec (aroundWrites socks) e .psiphon=e .psiphon :=
    exec_of_not_mem (by simp [aroundWrites]) e
  have hoff : psiphonMode table (exec (aroundWrites socks) e)=.off := by
    rw [psiphonMode,hkept,←psiphonMode,hpsiphon]
  have hcarried : Exec Task.mortal (startCarrier (psiphonMode table (exec (aroundWrites socks) e))
      .psiphonChain psiphonStartReverse .masque (runProtocol table .masque))
      ⟨exec (aroundWrites socks) e,[],.torReverse::.announceExit::l⟩ .cut
      ⟨exec (aroundWrites socks) e,[],.torReverse::.announceExit::l⟩ := by
    rw [hoff]
    exact exec_runProtocol_masque _
  refine .read ?_
  rw [htor,hpsiphon,if_neg CarrierMode.noConfusion,if_neg CarrierMode.noConfusion]
  exact .seqNext (exec_torStart _) (.seqNext (.detach _ _) (.seqNext (.detach _ _)
    (.choose socks (.seqNext (.write _ _) (.seqNext (.write _ _) (.read hcarried))))))

end Reach

end MsnGuard.EngineRuns
