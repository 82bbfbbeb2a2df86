import MsnGuard.SocksDatagrams
import MsnGuard.TransitionRuns

/-!
# The UDP ASSOCIATE request of the SOCKS5 server

The first datagram that a relay socket takes fixes the client: later ones have to come from the
same address, and answers go nowhere else. A setting drops the test of the sender for control
connections from the machine itself.
-/

namespace MsnGuard.UdpAssociate

open RustText IpAddresses RoutingRules RoutingDecisions SocksConnect SocksDatagrams TransitionRuns

/-- The address the client is expected to send from. -/
def expectedUdpSource (controlPeer : SocketAddr) (requested : Target) : IpAddr :=
  match requested with
  | .ip ip => if isUnspecified ip then normalizeIp controlPeer.ip else normalizeIp ip
  | .domain _ => normalizeIp controlPeer.ip

/-- The test of a sender: the known client, or before it is known, the expected
address with any port. -/
def udpSourceAllowed (expectedIp : IpAddr) (latched : Option SocketAddr) (sender : SocketAddr) : Bool :=
  match latched with
  | some known => known == sender
  | none => normalizeIp sender.ip == normalizeIp expectedIp

/-- Only clients on this machine may reach its own services. -/
def directTargetAllowed (client address : IpAddr) : Bool :=
  let address := normalizeIp address
  if isLoopback address || isUnspecified address then isLoopback (normalizeIp client) else true

/-- One association: the request and the settings it is served under. -/
structure Association (R : Type) where
  /-- The far end of the control connection. -/
  controlPeer : SocketAddr
  /-- The address the request names. -/
  requested : Target
  /-- The value of AETHER_LOCAL_UDP_ASSOCIATE. -/
  localUdpAssociate : Option Text
  /-- The rule set in force. -/
  routes : RuleSet R

/-- The test of the sender is dropped for a control connection from this machine. -/
def Association.allowLoopbackSource {R : Type} (a : Association R) : Bool :=
  a.localUdpAssociate == some "1".toList && isLoopback a.controlPeer.ip

/-- The address the datagrams are expected from. -/
def Association.expectedIp {R : Type} (a : Association R) : IpAddr :=
  expectedUdpSource a.controlPeer a.requested

/-- What the loop keeps. -/
structure Relay where
  /-- The client, once it is known. -/
  client : Option SocketAddr
  /-- The number of datagrams refused so far. -/
  refused : ℕ
  /-- Is the loop still running? -/
  running : Bool
  deriving DecidableEq

/-- The loop before its first round. -/
def Relay.initial : Relay := ⟨none,0,true⟩

/-- What one round of the loop is woken by. The look-ups that a datagram may
need come with it. -/
inductive Input where
  /-- The relay socket has a datagram, or fails. -/
  | relayRecv (read : Option (Bytes × SocketAddr)) (lookupHost : Option SocketAddr)
      (dnsResolve : Except String IpAddr)
  /-- The tunnel has an answer, or is gone. -/
  | fromStack (read : Option (SocketAddr × Bytes))
  /-- The socket for direct traffic has an answer, or fails. -/
  | directRecv (read : Option (Bytes × SocketAddr))
  /-- The control connection has bytes, or fails. -/
  | control (read : Option ℕ)

/-- What the loop does to the outside. The sender of the datagram behind a
forwarded payload is kept with it. -/
inductive Event where
  | tunnelled (sender dst : SocketAddr) (payload : Bytes)
  | direct (sender dst : SocketAddr) (payload : Bytes)
  | replied (client : SocketAddr) (packet : Bytes)
  | dropped (sender : SocketAddr)
  deriving DecidableEq

section Serving

variable {R : Type} (pkgs : RoutePackages R) (a : Association R)

/-- Where a taken datagram goes. -/
def forward (sender : SocketAddr) (buf : Bytes) (lookupHost : Option SocketAddr)
    (dnsResolve : Except String IpAddr) : List Event :=
  match parseUdpRequest buf with
  | none => []
  | some (dst,port,payload) =>
    match a.routes.decide pkgs (hostOf dst) port with
    | .block => []
    | .direct =>
      let outside : Option SocketAddr := match dst with
        | .ip ip => some ⟨ip,port⟩
        | .domain _ => lookupHost
      match outside with
      | some addr =>
        if directTargetAllowed a.controlPeer.ip addr.ip then [.direct sender addr payload] else []
      | none => []
    | .proxy =>
      match dst with
      | .ip ip => [.tunnelled sender ⟨ip,port⟩ payload]
      | .domain _ =>
        match dnsResolve with
        | .ok ip => [.tunnelled sender ⟨ip,port⟩ payload]
        | .error _ => []

/-- An answer for the client, if it is known. -/
def answer (s : Relay) (src : SocketAddr) (data : Bytes) : List Event :=
  match s.client with
  | some c => [.replied c (buildUdpReply src data)]
  | none => []

/-- One round of the loop. -/
def Relay.round (s : Relay) : Input → Relay × List Event
  | .relayRecv none _ _ => ({s with running := false},[])
  | .relayRecv (some (buf,sender)) lookupHost dnsResolve =>
    if !a.allowLoopbackSource && !udpSourceAllowed a.expectedIp s.client sender then
      ({s with refused := s.refused+1},[.dropped sender])
    else
      let client := if s.client.isNone then some sender else s.client
      ({s with client := client},forward pkgs a sender buf lookupHost dnsResolve)
  | .fromStack none => ({s with running := false},[])
  | .fromStack (some (src,data)) => (s,answer s src data)
  | .directRecv none => (s,[])
  | .directRecv (some (data,src)) => (s,answer s src data)
  | .control none => ({s with running := false},[])
  | .control (some n) => (if n=0 then {s with running := false} else s,[])

/-- The loop as a machine that any input may wake. -/
def machine : Machine Relay Input Event where
  start s := s=Relay.initial
  allowed s _ := s.running=true
  exec s input := some (s.round pkgs a input)

end Serving

/-- An address of this machine, in either form. -/
def FromHere (sender : SocketAddr) : Prop := isLoopback (normalizeIp sender.ip)=true

instance (sender : SocketAddr) : Decidable (FromHere sender) := inferInstanceAs (Decidable (_=true))

/-- What an event may be, given the client of the association: payloads come
from the client, or from this machine when the test of the sender is dropped,
and answers go to the client. -/
def Event.Attributed {R : Type} (a : Association R) (client : Option SocketAddr) : Event → Prop
  | .tunnelled sender _ _ | .direct sender _ _ =>
    if a.allowLoopbackSource then FromHere sender else client=some sender
  | .replied target _ => client=some target
  | .dropped _ => True

/-- While the test of the sender is dropped, every datagram that arrives is from
this machine. -/
def SendersHere {R : Type} (a : Association R) (_ : List Event) (_ : Relay) : Input → Prop
  | .relayRecv (some (_,sender)) _ _ => a.allowLoopbackSource=true → FromHere sender
  | _ => True

section Attribution

variable {R : Type} {pkgs : RoutePackages R} {a : Association R}

theorem Event.Attributed.later {client client' : Option SocketAddr} {e : Event}
    (h : e.Attributed a client) (hkeeps : ∀ c, client=some c → client'=some c) :
    e.Attributed a client' := by
  cases e with
  | tunnelled sender dst payload | direct sender dst payload =>
    simp only [Event.Attributed] at h ⊢
    split_ifs at h ⊢
    · exact h
    · exact hkeeps _ h
  | replied client packet => exact hkeeps _ h
  | dropped sender => trivial

/-- Whatever is forwarded keeps the sender of the datagram. -/
theorem forward_attributed {client : Option SocketAddr} {sender : SocketAddr}
    (h : if a.allowLoopbackSource then FromHere sender else client=some sender) (buf : Bytes)
    (lookupHost : Option SocketAddr) (dnsResolve : Except String IpAddr) :
    ∀ e∈forward pkgs a sender buf lookupHost dnsResolve, e.Attributed a client := by
  intro e he
  have hshape : (∃ dst payload, e=.tunnelled sender dst payload) ∨
      ∃ dst payload, e=.direct sender dst payload := by
    unfold forward at he
    split at he
    · simp at he
    · split at he
      · simp at he
      · dsimp only at he
        split at he
        · split at he
          · exact .inr ⟨_,_,List.mem_singleton.mp he⟩
          · simp at he
        · simp at he
      · split at he
        · exact .inl ⟨_,_,List.mem_singleton.mp he⟩
        · split at he
          · exact .inl ⟨_,_,List.mem_singleton.mp he⟩
          · simp at he
  rcases hshape with ⟨dst,payload,rfl⟩ | ⟨dst,payload,rfl⟩ <;> exact h

theorem answer_attributed (s : Relay) (src : SocketAddr) (data : Bytes) :
    ∀ e∈answer s src data, e.Attributed a s.client := by
  intro e he
  unfold answer at he
  split at he
  · rename_i c hc
    cases List.mem_singleton.mp he
    exact hc
  · simp at he

/-- The sender of a datagram that is not refused is the client afterwards, or is on this
machine when the test of the sender is dropped. -/
theorem taken_sender (s : Relay) {sender : SocketAddr}
    (hhere : a.allowLoopbackSource=true → FromHere sender)
    (htaken : ¬(!a.allowLoopbackSource && !udpSourceAllowed a.expectedIp s.client sender)=true) :
    if a.allowLoopbackSource then FromHere sender
    else (if s.client.isNone then some sender else s.client)=some sender := by
  cases hrelaxed : a.allowLoopbackSource with
  | true => exact hhere hrelaxed
  | false =>
    have hallowed : udpSourceAllowed a.expectedIp s.client sender=true := by
      simpa [hrelaxed] using htaken
    cases hclient : s.client with
    | none => rfl
    | some known =>
      have hknown : known=sender := by
        simpa [udpSourceAllowed,hclient] using hallowed
      simp [hknown]

/-- One round keeps a known client, and all it does is attributed to the client
it leaves. -/
theorem round_attributed (pkgs : RoutePackages R) (s : Relay) {t : List Event} {input : Input}
    (hcond : SendersHere a t s input) :
    (∀ c, s.client=some c → (s.round pkgs a input).1.client=some c) ∧
      ∀ e∈(s.round pkgs a input).2, e.Attributed a (s.round pkgs a input).1.client := by
  cases input with
  | relayRecv read lookupHost dnsResolve =>
    cases read with
    | none => exact ⟨fun _ h => h,by simp [Relay.round]⟩
    | some datagram =>
      obtain ⟨buf,sender⟩ := datagram
      simp only [Relay.round]
      split
      · refine ⟨fun _ h => h,?_⟩
        simp [Event.Attributed]
      · rename_i htaken
        constructor
        · intro c hc
          simp [hc]
        · exact forward_attributed (taken_sender s hcond htaken) buf lookupHost dnsResolve
  | fromStack read =>
    cases read with
    | none => exact ⟨fun _ h => h,by simp [Relay.round]⟩
    | some packet => exact ⟨fun _ h => h,answer_attributed s packet.1 packet.2⟩
  | directRecv read =>
    cases read with
    | none => exact ⟨fun _ h => h,by simp [Relay.round]⟩
    | some packet => exact ⟨fun _ h => h,answer_attributed s packet.2 packet.1⟩
  | control read =>
    cases read with
    | none => exact ⟨fun _ h => h,by simp [Relay.round]⟩
    | some n =>
      by_cases hn : n=0
      · exact ⟨fun _ h => by simpa [Relay.round,hn] using h,by simp [Relay.round]⟩
      · exact ⟨fun _ h => by simpa [Relay.round,hn] using h,by simp [Relay.round]⟩

/-- In every run in which no datagram from elsewhere arrives while the test of
the sender is dropped, all that was forwarded came from the client, or from this
machine when the test is dropped, and all answers went to the client. -/
theorem attributed_of_run {t : List Event} {s : Relay}
    (h : (machine pkgs a).Run (SendersHere a) t s) : ∀ e∈t, e.Attributed a s.client := by
  refine h.invariant (fun t s => ∀ e∈t, e.Attributed a s.client) ?_ ?_
  · intro s _
    simp
  · intro t s input s' new hinv _ hcond hexec
    obtain ⟨hkeeps,hnew⟩ := round_attributed pkgs s hcond
    have hround : s.round pkgs a input=(s',new) := Option.some.inj hexec
    rw [hround] at hkeeps hnew
    intro e he
    rcases List.mem_append.mp he with hold | hfresh
    · exact (hinv e hold).later hkeeps
    · exact hnew e hfresh

end Attribution

/-- An association of a client on this machine with the setting on and no rules. -/
def localAssociation : Association Unit where
  controlPeer := ⟨.v4 (ipv4OfOctets 127 0 0 1),5000⟩
  requested := .ip (.v4 0)
  localUdpAssociate := some "1".toList
  routes := RuleSet.parse plainPackages [] []

/-- One payload byte for port 53 of 1.1.1.1. -/
def sampleDatagram : Bytes := [0,0,0,1,1,1,1,1,0,53,7]

/-- The association after the datagram of one sender, who becomes the client. -/
theorem run_sample {cond : List Event → Relay → Input → Prop} (sender : SocketAddr)
    (hcond : cond [] Relay.initial (.relayRecv (some (sampleDatagram,sender)) none (.error ""))) :
    (machine plainPackages localAssociation).Run cond
      [.tunnelled sender ⟨.v4 (ipv4OfOctets 1 1 1 1),53⟩ [7]] ⟨some sender,0,true⟩ := by
  have hforward : forward plainPackages localAssociation sender sampleDatagram none (.error "")=
      [.tunnelled sender ⟨.v4 (ipv4OfOctets 1 1 1 1),53⟩ [7]] := by
    rfl
  have hexec : (machine plainPackages localAssociation).exec Relay.initial
      (.relayRecv (some (sampleDatagram,sender)) none (.error ""))=
      some (⟨some sender,0,true⟩,[.tunnelled sender ⟨.v4 (ipv4OfOctets 1 1 1 1),53⟩ [7]]) := by
    rw [←hforward]
    rfl
  have hstart : (machine plainPackages localAssociation).Run cond [] Relay.initial := .start rfl
  exact hstart.next _ rfl hcond hexec

/-- A datagram of the client on this machine goes to the tunnel. -/
theorem local_sender_attributed :
    (Event.tunnelled ⟨.v4 (ipv4OfOctets 127 0 0 1),4000⟩ ⟨.v4 (ipv4OfOctets 1 1 1 1),53⟩ [7]).Attributed
      localAssociation (some ⟨.v4 (ipv4OfOctets 127 0 0 1),4000⟩) :=
  attributed_of_run (run_sample ⟨.v4 (ipv4OfOctets 127 0 0 1),4000⟩ (fun _ => by decide)) _
    (List.mem_singleton.mpr rfl)

/-- A datagram from another machine goes to the tunnel as well. -/
theorem foreign_sender_served :
    ∃ t s, (machine plainPackages localAssociation).Run always t s ∧
      ¬∀ e∈t, e.Attributed localAssociation s.client := by
  refine ⟨_,_,run_sample ⟨.v4 (ipv4OfOctets 203 0 113 9),4000⟩ trivial,fun h => ?_⟩
  have hhere : FromHere ⟨.v4 (ipv4OfOctets 203 0 113 9),4000⟩ := h _ (List.mem_singleton.mpr rfl)
  exact absurd hhere (by decide)

end MsnGuard.UdpAssociate
