import MsnGuard.RoutingDecisions

/-!
# The CONNECT request of the SOCKS5 server

A connection has up to two identities: the target the client named and the name its first bytes
announce. Both are put before the rule set, the announced name first. What the outside does is
an environment that the results quantify over.
-/

namespace MsnGuard.SocksConnect

open RustText IpAddresses RoutingRules RoutingDecisions

/-- The destination of a request as the client sent it. -/
inductive Target where
  | ip (address : IpAddr)
  | domain (name : Text)
  deriving DecidableEq

/-- The target in the form the rules see. -/
def hostOf : Target → Host
  | .domain name => .domain name
  | .ip ip => .ip ip

section Deciding

variable {R : Type} (pkgs : RoutePackages R)

/-- The announced name decides unless it says nothing; then the target does. -/
def decideRoute (set : RuleSet R) (target : Target) (sniffed : Option Text) (port : ℕ) : Action :=
  match sniffed with
  | some name =>
    match set.decide pkgs (.domain name) port with
    | .proxy => set.decide pkgs (hostOf target) port
    | decided => decided
  | none => set.decide pkgs (hostOf target) port

/-- Some block rule applies to the target or to the announced name. -/
def BlockApplies (set : RuleSet R) (target : Target) (sniffed : Option Text) (port : ℕ) : Prop :=
  anyMatches pkgs set.block (hostOf target) port=true ∨
    ∃ name, sniffed=some name ∧ anyMatches pkgs set.block (.domain name) port=true

/-- A direct rule on the announced name, which no block rule refuses, hides a
block rule on the target. -/
def DirectHidesBlock (set : RuleSet R) (target : Target) (sniffed : Option Text) (port : ℕ) :
    Prop :=
  ∃ name, sniffed=some name ∧ anyMatches pkgs set.direct (.domain name) port=true ∧
    anyMatches pkgs set.block (.domain name) port=false ∧
    anyMatches pkgs set.block (hostOf target) port=true

theorem decide_eq_block_iff (set : RuleSet R) (host : Host) (port : ℕ) :
    set.decide pkgs host port=.block ↔ anyMatches pkgs set.block host port=true := by
  unfold RuleSet.decide
  cases anyMatches pkgs set.block host port <;> cases anyMatches pkgs set.direct host port <;> simp

/-- With an announced name, the connection is blocked when the name is, or when
the name is not sent direct and the target is blocked. -/
theorem decideRoute_some_eq_block_iff (set : RuleSet R) (target : Target) (name : Text)
    (port : ℕ) :
    decideRoute pkgs set target (some name) port=.block ↔
      anyMatches pkgs set.block (.domain name) port=true ∨
        anyMatches pkgs set.direct (.domain name) port=false ∧
          anyMatches pkgs set.block (hostOf target) port=true := by
  unfold decideRoute
  cases hb : anyMatches pkgs set.block (.domain name) port <;>
    cases hd : anyMatches pkgs set.direct (.domain name) port <;>
      simp [RuleSet.decide,hb,hd]
  cases anyMatches pkgs set.block (hostOf target) port <;>
    cases anyMatches pkgs set.direct (hostOf target) port <;> simp

/-- A block rule on either identity refuses the connection, except when a
direct rule on the announced name hides the block rule on the target. -/
theorem decideRoute_blocks_iff (set : RuleSet R) (target : Target) (sniffed : Option Text)
    (port : ℕ) :
    (BlockApplies pkgs set target sniffed port → decideRoute pkgs set target sniffed port=.block) ↔
      ¬DirectHidesBlock pkgs set target sniffed port := by
  cases sniffed with
  | none =>
    simp [BlockApplies,DirectHidesBlock,decideRoute,decide_eq_block_iff]
  | some name =>
    simp only [BlockApplies,DirectHidesBlock,decideRoute_some_eq_block_iff,Option.some.injEq,
      exists_eq_left']
    cases anyMatches pkgs set.block (.domain name) port <;>
      cases anyMatches pkgs set.direct (.domain name) port <;>
        cases anyMatches pkgs set.block (hostOf target) port <;> simp

/-- An address blocked by a rule of its own is sent past the tunnel when the
client announces a name from the direct list. -/
theorem announced_name_hides_block :
    BlockApplies plainPackages
        (RuleSet.parse plainPackages "10.1.2.3".toList "internal.example".toList)
        (.ip (.v4 (ipv4OfOctets 10 1 2 3))) (some "internal.example".toList) 443 ∧
      decideRoute plainPackages
        (RuleSet.parse plainPackages "10.1.2.3".toList "internal.example".toList)
        (.ip (.v4 (ipv4OfOctets 10 1 2 3))) (some "internal.example".toList) 443=.direct :=
  ⟨.inl (by decide +kernel),by decide +kernel⟩

end Deciding

/-- The protocol version byte. -/
def VER : UInt8 := 0x05

/-- Address type of an IPv4 address. -/
def ATYP_V4 : UInt8 := 0x01

/-- Address type of an IPv6 address. -/
def ATYP_V6 : UInt8 := 0x04

/-- Reply code: the request succeeded. -/
def REP_OK : UInt8 := 0x00

/-- Reply code: general failure. -/
def REP_GENERAL : UInt8 := 0x01

/-- Reply code: the rules refuse the connection. -/
def REP_NOT_ALLOWED : UInt8 := 0x02

/-- One call that writes to the client socket: a SOCKS5 reply, whose second byte
is its code, or bytes of the relayed connection. -/
inductive ClientWrite where
  | socksReply (message : Bytes)
  | payload (bytes : Bytes)
  deriving DecidableEq

/-- The reply with a code and an unspecified bound address. -/
def reply (code : UInt8) : ClientWrite :=
  .socksReply [VER,code,0x00,ATYP_V4,0,0,0,0,0,0]

/-- The success reply that names the bound address. -/
def replyBound (bound : SocketAddr) : ClientWrite :=
  let address := match bound.ip with
    | .v4 a => ATYP_V4::(List.range 4).map fun i => UInt8.ofNat (octet a i)
    | .v6 a => ATYP_V6::(List.range 16).map fun i => UInt8.ofNat (a.toNat/2^(8*(15-i)))
  .socksReply ([VER,REP_OK,0x00]++address++[UInt8.ofNat (bound.port/256),UInt8.ofNat bound.port])

/-- The bound address of every CONNECT: the connection leaves elsewhere. -/
def unspecifiedBound : SocketAddr := ⟨.v4 0,0⟩

/-- Everything written to the client so far, oldest first. -/
abbrev ClientLog := List ClientWrite

/-- Why a direct dial gave no connection. -/
inductive DirectFailure where
  | permissionDenied
  | other
  | timedOut
  deriving DecidableEq

/-- What the outside does during one request. -/
structure ConnectEnv (R : Type) where
  /-- The rule set in force. -/
  routes : RuleSet R
  /-- Is reading the first bytes switched on? -/
  sniffEnabled : Bool
  /-- The first bytes: none when the client hung up, empty when it kept silent. -/
  sniffHead : Option Bytes
  /-- The name that first bytes announce. -/
  hostname : Bytes → Option Text
  /-- The gateway proxy, while it is set and healthy. -/
  gatewayProxy : Option SocketAddr
  /-- Outcome of the dial through the gateway: bytes after its answer, or an error. -/
  openThroughGateway : SocketAddr → Text → ℕ → Except String Bytes
  /-- Text of an address, as the gateway is told it. -/
  addressText : IpAddr → Text
  /-- Outcome of a DNS query through the tunnel. -/
  dnsResolve : Text → Except String IpAddr
  /-- Outcome of opening a connection in the tunnel. -/
  openTcp : SocketAddr → Except String Unit
  /-- The client's own address. -/
  peerAddr : Except String IpAddr
  /-- Outcome of the direct dial within its time limit. -/
  connectDirect : Text → ℕ → IpAddr → Except DirectFailure Unit
  /-- Does a write to the client succeed after the given earlier writes? -/
  clientAccepts : ClientLog → ClientWrite → Bool
  /-- Does the far end take the first bytes? -/
  farAccepts : Bytes → Bool
  /-- Chunks of the far end that the relay comes to pass on. -/
  downloads : List Bytes

section Handling

variable {R : Type} (pkgs : RoutePackages R) (env : ConnectEnv R)

/-- A literal address needs no resolver, also when it is sent as a name. -/
def resolve (target : Target) : Except String IpAddr :=
  match target with
  | .ip ip => .ok ip
  | .domain name =>
    match parseIpAddr name with
    | some ip => .ok ip
    | none => env.dnsResolve name

/-- The gateway takes web traffic only. -/
def shouldUseGateway (port : ℕ) : Bool := port == 80 || port == 443

/-- The host part that a gateway or a direct dial is given. -/
def hostText (target : Target) : Text :=
  match target with
  | .domain name => name
  | .ip ip => env.addressText ip

/-- Resolve the target and open it in the tunnel; nothing has been read yet. -/
def openResolved (target : Target) (port : ℕ) : Except String Bytes :=
  match resolve env target with
  | .error e => .error e
  | .ok ip =>
    match env.openTcp ⟨ip,port⟩ with
    | .error e => .error e
    | .ok () => .ok []

/-- Open the tunnelled connection, through the gateway if there is one for the
port; a gateway that fails is passed over. -/
def openTunneled (target : Target) (port : ℕ) : Except String Bytes :=
  match env.gatewayProxy.filter fun _ => shouldUseGateway port with
  | some proxy =>
    match env.openThroughGateway proxy (hostText env target) port with
    | .ok leftover => .ok leftover
    | .error _ => openResolved env target port
  | none => openResolved env target port

/-- Pass chunks to the client until one is not taken. -/
def relayDownload : List Bytes → ClientLog → ClientLog
  | [],log => log
  | chunk::chunks,log =>
    if env.clientAccepts log (.payload chunk) then
      relayDownload chunks (log++[.payload chunk])
    else log++[.payload chunk]

/-- The success reply, if it has not been written yet, and then the rest. -/
def withReply (replied : Bool) (log : ClientLog)
    (rest : ClientLog → ClientLog × Except String Unit) : ClientLog × Except String Unit :=
  if replied then rest log
  else if env.clientAccepts log (replyBound unspecifiedBound) then
    rest (log++[replyBound unspecifiedBound])
  else (log++[replyBound unspecifiedBound],.error "write failed")

/-- The direct route: dial, pass on the first bytes, answer, relay. -/
def handleDirect (target : Target) (port : ℕ) (head : Bytes) (replied : Bool)
    (log : ClientLog) : ClientLog × Except String Unit :=
  match env.peerAddr with
  | .error e => (log,.error e)
  | .ok client =>
    match env.connectDirect (hostText env target) port client with
    | .error failure =>
      let code := if failure=.permissionDenied then REP_NOT_ALLOWED else REP_GENERAL
      (if replied then log else log++[reply code],.ok ())
    | .ok () =>
      if head≠[] ∧ env.farAccepts head=false then (log,.ok ())
      else withReply env replied log fun log => (relayDownload env env.downloads log,.ok ())

/-- The tunnelled connection is open: answer, pass on the first bytes in both
directions, relay. -/
def handleOpened (head leftover : Bytes) (replied : Bool) (log : ClientLog) :
    ClientLog × Except String Unit :=
  withReply env replied log fun log =>
    if head≠[] ∧ env.farAccepts head=false then (log,.ok ())
    else if leftover=[] then (relayDownload env env.downloads log,.ok ())
    else if env.clientAccepts log (.payload leftover) then
      (relayDownload env env.downloads (log++[.payload leftover]),.ok ())
    else (log++[.payload leftover],.ok ())

/-- The routed part of a request. A tunnel that cannot be opened is reported to
the client whether or not it has been answered before. -/
def handleRouted (target : Target) (port : ℕ) (head : Bytes) (named : Option Text)
    (replied : Bool) (log : ClientLog) : ClientLog × Except String Unit :=
  match decideRoute pkgs env.routes target named port with
  | .block => (if replied then log else log++[reply REP_NOT_ALLOWED],.ok ())
  | .direct => handleDirect env target port head replied log
  | .proxy =>
    match openTunneled env target port with
    | .error e => (log++[reply REP_GENERAL],.error e)
    | .ok leftover => handleOpened env head leftover replied log

/-- The name in the first bytes; silence announces nothing. -/
def sniffedName (head : Bytes) : Option Text := if head=[] then none else env.hostname head

/-- The handler answers at once when only the first bytes can tell the name. -/
def answersEarly (target : Target) : Bool :=
  (match target with
    | .ip _ => true
    | .domain _ => false) && env.sniffEnabled && env.routes.hasDomainRules

/-- The whole request: all writes to the client and the result. -/
def handleConnect (target : Target) (port : ℕ) : ClientLog × Except String Unit :=
  if answersEarly env target then
    let early := replyBound unspecifiedBound
    if env.clientAccepts [] early then
      match env.sniffHead with
      | none => ([early],.ok ())
      | some head => handleRouted pkgs env target port head (sniffedName env head) true [early]
    else ([early],.error "write failed")
  else handleRouted pkgs env target port [] none false []

/-- Is the write a SOCKS5 reply? -/
def isReply : ClientWrite → Bool
  | .socksReply _ => true
  | .payload _ => false

/-- Is the write a SOCKS5 reply that reports success? -/
def isSuccess : ClientWrite → Bool
  | .socksReply message => message[1]? == some REP_OK
  | .payload _ => false

/-- At most one reply is written, and nothing but relayed bytes follows a
reply that reports success. -/
def RepliesOnce (log : ClientLog) : Prop :=
  log.countP isReply≤1 ∧ ∀ before w after, log=before++w::after → isSuccess w=true →
      ∀ x∈after, isReply x=false

/-- Relayed bytes only. -/
def PayloadOnly (log : ClientLog) : Prop := ∀ x∈log, isReply x=false

theorem countP_payloadOnly {log : ClientLog} (h : PayloadOnly log) : log.countP isReply=0 := by
  rw [List.countP_eq_zero]
  intro x hx
  simp [h x hx]

/-- Relayed bytes, with or without one write before them, are answered once. -/
theorem repliesOnce_payloadOnly {log : ClientLog} (h : PayloadOnly log) : RepliesOnce log := by
  refine ⟨by rw [countP_payloadOnly h]; exact Nat.zero_le 1,?_⟩
  intro before w after hlog _ x hx
  exact h x (by rw [hlog]; simp [hx])

theorem repliesOnce_cons {w : ClientWrite} {log : ClientLog} (h : PayloadOnly log) :
    RepliesOnce (w::log) := by
  constructor
  · have hcount := countP_payloadOnly h
    rw [List.countP_cons,hcount]
    split <;> omega
  · intro before w' after hlog _ x hx
    cases before with
    | nil =>
      cases hlog
      exact h x hx
    | cons b before =>
      cases hlog
      exact h x (by simp [hx])

/-- The relay adds relayed bytes only. -/
theorem relayDownload_log (chunks : List Bytes) (log : ClientLog) :
    ∃ ps, PayloadOnly ps ∧ relayDownload env chunks log=log++ps := by
  induction chunks generalizing log with
  | nil => exact ⟨[],by simp [PayloadOnly],by simp [relayDownload]⟩
  | cons chunk chunks ih =>
    rw [relayDownload]
    split
    · obtain ⟨ps,hps,hrun⟩ := ih (log++[.payload chunk])
      refine ⟨.payload chunk::ps,?_,by rw [hrun]; simp⟩
      simpa [PayloadOnly,isReply] using hps
    · exact ⟨[.payload chunk],by simp [PayloadOnly,isReply],rfl⟩

/-- Between the open connection and its end, the client gets the reply it has
not had yet and relayed bytes. -/
theorem withReply_log {rest : ClientLog → ClientLog × Except String Unit}
    (hrest : ∀ log, ∃ ps, PayloadOnly ps ∧ (rest log).1=log++ps)
    (replied : Bool) (log : ClientLog) :
    (replied=true ∧ ∃ ps, PayloadOnly ps ∧ (withReply env replied log rest).1=log++ps) ∨
      (replied=false ∧ ∃ w ps, PayloadOnly ps ∧ (withReply env replied log rest).1=log++w::ps) := by
  cases replied with
  | true => exact .inl ⟨rfl,by simpa [withReply] using hrest log⟩
  | false =>
    refine .inr ⟨rfl,replyBound unspecifiedBound,?_⟩
    by_cases ha : env.clientAccepts log (replyBound unspecifiedBound)=true
    · obtain ⟨ps,hps,hrun⟩ := hrest (log++[replyBound unspecifiedBound])
      exact ⟨ps,hps,by simp [withReply,ha,hrun]⟩
    · exact ⟨[],by simp [PayloadOnly],by simp [withReply,ha]⟩

/-- The direct route never writes a second reply. -/
theorem handleDirect_log (target : Target) (port : ℕ) (head : Bytes) (replied : Bool)
    (log : ClientLog) :
    (∃ ps, PayloadOnly ps ∧ (handleDirect env target port head replied log).1=log++ps) ∨
      (replied=false ∧ ∃ w ps, PayloadOnly ps ∧
        (handleDirect env target port head replied log).1=log++w::ps) := by
  have hsame : ∃ ps, PayloadOnly ps ∧ log=log++ps :=
    ⟨[],by simp [PayloadOnly],(List.append_nil log).symm⟩
  unfold handleDirect
  split
  · exact .inl hsame
  · split
    · cases replied with
      | true => exact .inl hsame
      | false => exact .inr ⟨rfl,_,[],by simp [PayloadOnly],rfl⟩
    · split
      · exact .inl hsame
      · refine (withReply_log env ?_ replied log).imp (fun h => h.2) id
        exact fun log => relayDownload_log env env.downloads log

/-- An opened tunnel is answered as far as it has not been, then relayed. -/
theorem handleOpened_log (head leftover : Bytes) (replied : Bool) (log : ClientLog) :
    (∃ ps, PayloadOnly ps ∧ (handleOpened env head leftover replied log).1=log++ps) ∨
      (replied=false ∧ ∃ w ps, PayloadOnly ps ∧
        (handleOpened env head leftover replied log).1=log++w::ps) := by
  refine (withReply_log env ?_ replied log).imp (fun h => h.2) id
  intro log
  split
  · exact ⟨[],by simp [PayloadOnly],(List.append_nil log).symm⟩
  · split
    · exact relayDownload_log env env.downloads log
    · split
      · obtain ⟨ps,hps,hrun⟩ := relayDownload_log env env.downloads (log++[.payload leftover])
        refine ⟨.payload leftover::ps,?_,by simp [hrun]⟩
        simpa [PayloadOnly,isReply] using hps
      · exact ⟨[.payload leftover],by simp [PayloadOnly,isReply],rfl⟩

/-- The routed part adds relayed bytes, or one more write before them when the
client has not been answered or the tunnel could not be opened. -/
theorem handleRouted_log (target : Target) (port : ℕ) (head : Bytes) (named : Option Text)
    (replied : Bool) (log : ClientLog) :
    (∃ ps, PayloadOnly ps ∧ (handleRouted pkgs env target port head named replied log).1=log++ps) ∨
      (∃ w ps, PayloadOnly ps ∧
        (handleRouted pkgs env target port head named replied log).1=log++w::ps) ∧
        (replied=false ∨ decideRoute pkgs env.routes target named port=.proxy ∧
          ∃ e, openTunneled env target port=.error e) := by
  have hsame : ∃ ps, PayloadOnly ps ∧ log=log++ps :=
    ⟨[],by simp [PayloadOnly],(List.append_nil log).symm⟩
  unfold handleRouted
  split
  · cases replied with
    | true => exact .inl hsame
    | false => exact .inr ⟨⟨_,[],by simp [PayloadOnly],rfl⟩,.inl rfl⟩
  · rcases handleDirect_log env target port head replied log with h | h
    · exact .inl h
    · exact .inr ⟨h.2,.inl h.1⟩
  · rename_i hroute
    split
    · rename_i e he
      exact .inr ⟨⟨_,[],by simp [PayloadOnly],rfl⟩,.inr ⟨hroute,e,he⟩⟩
    · rename_i leftover _
      rcases handleOpened_log env head leftover replied log with h | h
      · exact .inl h
      · exact .inr ⟨h.2,.inl h.1⟩

/-- The gateway does not take the connection: there is none for the port, or
its dial fails. -/
def GatewayFails (target : Target) (port : ℕ) : Prop :=
  ∀ proxy, env.gatewayProxy=some proxy → shouldUseGateway port=true →
    ∃ e, env.openThroughGateway proxy (hostText env target) port=.error e

/-- The target is an address, the client was answered early and sent its first
bytes, the route is the tunnel, and neither the gateway nor the tunnel can
reach the address. -/
def LateFailure (target : Target) (port : ℕ) : Prop :=
  ∃ ip head, target=.ip ip ∧ env.sniffEnabled=true ∧ env.routes.hasDomainRules=true ∧
    env.clientAccepts [] (replyBound unspecifiedBound)=true ∧ env.sniffHead=some head ∧
    decideRoute pkgs env.routes target (sniffedName env head) port=.proxy ∧
    GatewayFails env target port ∧ ∃ e, env.openTcp ⟨ip,port⟩=.error e

/-- An address fails to open when the gateway and the tunnel both fail. -/
theorem openTunneled_ip_error_iff (ip : IpAddr) (port : ℕ) :
    (∃ e, openTunneled env (.ip ip) port=.error e) ↔
      GatewayFails env (.ip ip) port ∧ ∃ e, env.openTcp ⟨ip,port⟩=.error e := by
  have hopen : (∃ e, openResolved env (.ip ip) port=.error e) ↔
      ∃ e, env.openTcp ⟨ip,port⟩=.error e := by
    unfold openResolved
    simp only [resolve]
    cases env.openTcp ⟨ip,port⟩ <;> simp
  unfold openTunneled GatewayFails
  cases hg : env.gatewayProxy with
  | none => simpa using hopen
  | some proxy =>
    cases hp : shouldUseGateway port with
    | false => simpa [Option.filter] using hopen
    | true =>
      cases hd : env.openThroughGateway proxy (hostText env (.ip ip)) port with
      | error e => simpa [Option.filter,hd] using hopen
      | ok leftover => simp [Option.filter,hd]

/-- The client gets at most one reply, and only relayed bytes after a success,
exactly when no tunnel fails after an early answer. -/
theorem handleConnect_repliesOnce_iff (target : Target) (port : ℕ) :
    RepliesOnce (handleConnect pkgs env target port).1 ↔ ¬LateFailure pkgs env target port := by
  constructor
  · rintro honce ⟨ip,head,rfl,hs,hr,ha,hh,hroute,hgate,hopen⟩
    obtain ⟨e,he⟩ := (openTunneled_ip_error_iff env ip port).mpr ⟨hgate,hopen⟩
    have hlog : (handleConnect pkgs env (.ip ip) port).1=
        [replyBound unspecifiedBound,reply REP_GENERAL] := by
      simp [handleConnect,answersEarly,hs,hr,ha,hh,handleRouted,hroute,he]
    rw [hlog] at honce
    exact absurd honce.1 (by decide)
  · intro hlate
    unfold handleConnect
    by_cases hearly : answersEarly env target=true
    · rw [if_pos hearly]
      dsimp only
      split
      · rename_i ha
        split
        · exact repliesOnce_cons (by simp [PayloadOnly])
        · rename_i head hh
          rcases handleRouted_log pkgs env target port head (sniffedName env head) true
            [replyBound unspecifiedBound] with ⟨ps,hps,hrun⟩ | ⟨-,hfail⟩
          · rw [hrun]
            exact repliesOnce_cons hps
          · exfalso
            rcases hfail with h | ⟨hroute,herr⟩
            · cases h
            · cases target with
              | domain name => simp [answersEarly] at hearly
              | ip ip =>
                simp only [answersEarly,Bool.true_and,Bool.and_eq_true] at hearly
                have hopen := (openTunneled_ip_error_iff env ip port).mp herr
                exact hlate ⟨ip,head,rfl,hearly.1,hearly.2,ha,hh,hroute,hopen.1,hopen.2⟩
      · exact repliesOnce_cons (by simp [PayloadOnly])
    · rw [if_neg hearly]
      rcases handleRouted_log pkgs env target port [] none false [] with
        ⟨ps,hps,hrun⟩ | ⟨⟨w,ps,hps,hrun⟩,-⟩
      · rw [hrun,List.nil_append]
        exact repliesOnce_payloadOnly hps
      · rw [hrun,List.nil_append]
        exact repliesOnce_cons hps

end Handling

/-- A client whose first bytes announce nothing, behind rules that need a name;
the address it wants cannot be opened in the tunnel. -/
def unreachableEnv : ConnectEnv Unit where
  routes := RuleSet.parse plainPackages "ads.example".toList []
  sniffEnabled := true
  sniffHead := some [0x16,0x03,0x01]
  hostname _ := none
  gatewayProxy := none
  openThroughGateway _ _ _ := .error "no gateway"
  addressText _ := "93.184.216.34".toList
  dnsResolve _ := .error "dns timeout"
  openTcp _ := .error "connection refused"
  peerAddr := .ok (.v4 (ipv4OfOctets 127 0 0 1))
  connectDirect _ _ _ := .ok ()
  clientAccepts _ _ := true
  farAccepts _ := true
  downloads := []

/-- The failure of the tunnel reaches the client as a second reply, after the
one that reported success. -/
theorem second_reply_after_success :
    (handleConnect plainPackages unreachableEnv (.ip (.v4 (ipv4OfOctets 93 184 216 34))) 443).1=
        [replyBound unspecifiedBound,reply REP_GENERAL] ∧
      ¬RepliesOnce
        (handleConnect plainPackages unreachableEnv (.ip (.v4 (ipv4OfOctets 93 184 216 34))) 443).1 := by
  have hlog : (handleConnect plainPackages unreachableEnv
      (.ip (.v4 (ipv4OfOctets 93 184 216 34))) 443).1=
        [replyBound unspecifiedBound,reply REP_GENERAL] := by
    decide +kernel
  refine ⟨hlog,?_⟩
  rw [hlog]
  exact fun h => absurd h.1 (by decide)

end MsnGuard.SocksConnect
