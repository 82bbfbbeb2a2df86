import MsnGuard.UdpAssociate

/-!
# Direct traffic to this machine

A rule can send a request past the tunnel. Every address that the request names or that a name
resolves to is tested before it is dialled or sent to: the loopback of this machine is for
clients on this machine.
-/

namespace MsnGuard.DirectTargets

open List
open RustText IpAddresses RoutingRules RoutingDecisions SocksDatagrams UdpAssociate TransitionRuns

/-- Why a direct connection was not made. -/
inductive DirectError where
  /-- The address is this machine's own loopback, which only local clients may reach. -/
  | permissionDenied (address : SocketAddr)
  | connect (error : String)
  /-- The host did not resolve to any address. -/
  | notFound (host : Text)

/-- The addresses that were dialled and what came of it. -/
structure Dialled where
  attempts : List SocketAddr
  result : Except DirectError SocketAddr

/-- Dial one address after the other until one answers. -/
def dialAll (client : IpAddr) (tcpConnect : SocketAddr → Except String Unit)
    (lastError : DirectError) : List SocketAddr → Dialled
  | [] => ⟨[],.error lastError⟩
  | address::rest =>
    if directTargetAllowed client address.ip=false then
      dialAll client tcpConnect (.permissionDenied address) rest
    else match tcpConnect address with
      | .ok () => ⟨[address],.ok address⟩
      | .error error =>
        let later := dialAll client tcpConnect (.connect error) rest
        ⟨address::later.attempts,later.result⟩

/-- A direct connection to a host, for a client. -/
def connectDirect (lookupHost : Text → ℕ → Except String (List SocketAddr))
    (tcpConnect : SocketAddr → Except String Unit) (host : Text) (port : ℕ) (client : IpAddr) :
    Dialled :=
  match lookupHost host port with
  | .error error => ⟨[],.error (.connect error)⟩
  | .ok addresses => dialAll client tcpConnect (.notFound host) addresses

/-- The address that is meant: itself, or the IPv4 address that it is a form of. -/
inductive Means : IpAddr → IpAddr → Prop
  | self (ip : IpAddr) : Means ip ip
  | mapped (a : Ipv4Addr) : Means (.v6 (toIpv6Mapped a)) (.v4 a)

/-- An address of the loopback. -/
def Loopback (ip : IpAddr) : Prop := ∃ meant, Means ip meant ∧ isLoopback meant=true

/-- An address that leads to this machine itself. -/
def Own (ip : IpAddr) : Prop :=
  ∃ meant, Means ip meant ∧ (isLoopback meant=true ∨ isUnspecified meant=true)

section Forms

variable {ip meant : IpAddr}

theorem toIpv4Mapped_toIpv6Mapped (a : Ipv4Addr) : toIpv4Mapped (toIpv6Mapped a)=some a := by
  have hlt := a.isLt
  have hvalue : (toIpv6Mapped a).toNat=0xffff*2^32+a.toNat := by
    rw [toIpv6Mapped,BitVec.toNat_ofNat,Nat.mod_eq_of_lt (by omega)]
  rw [toIpv4Mapped,hvalue,if_pos (by omega)]
  congr 1
  apply BitVec.eq_of_toNat_eq
  rw [BitVec.toNat_ofNat]
  omega

theorem toIpv6Mapped_of_toIpv4Mapped {x : Ipv6Addr} {a : Ipv4Addr} (h : toIpv4Mapped x=some a) :
    x=toIpv6Mapped a := by
  unfold toIpv4Mapped at h
  split_ifs at h with hhigh
  cases h
  apply BitVec.eq_of_toNat_eq
  rw [toIpv6Mapped,BitVec.toNat_ofNat,BitVec.toNat_ofNat]
  omega

/-- The address that the tests look at is one that is meant. -/
theorem means_normalizeIp (ip : IpAddr) : Means ip (normalizeIp ip) := by
  unfold normalizeIp
  split
  · exact .self _
  · split
    · rename_i v4 h
      rw [toIpv6Mapped_of_toIpv4Mapped h]
      exact .mapped v4
    · exact .self _

/-- The tests look at the address of this machine that is meant. -/
theorem normalizeIp_of_means (h : Means ip meant)
    (hown : isLoopback meant=true ∨ isUnspecified meant=true) : normalizeIp ip=meant := by
  cases h with
  | mapped a => rw [normalizeIp,toIpv4Mapped_toIpv6Mapped]
  | self =>
    cases ip with
    | v4 a => rfl
    | v6 x =>
      have hx : x=1 ∨ x=0 := by simpa [isLoopback,isUnspecified] using hown
      rcases hx with rfl | rfl <;> rfl

theorem not_own_of_allowed {client : IpAddr} (hclient : ¬Loopback client)
    (h : directTargetAllowed client ip=true) : ¬Own ip := by
  rintro ⟨meant,hmeans,hown⟩
  have hflag : (isLoopback meant || isUnspecified meant)=true := Bool.or_eq_true_iff.mpr hown
  rw [directTargetAllowed,normalizeIp_of_means hmeans hown] at h
  rw [if_pos hflag] at h
  exact hclient ⟨_,means_normalizeIp client,h⟩

end Forms

theorem dialAll_allowed (client : IpAddr) (tcpConnect : SocketAddr → Except String Unit)
    (lastError : DirectError) (addresses : List SocketAddr) :
    ∀ address∈(dialAll client tcpConnect lastError addresses).attempts,
      directTargetAllowed client address.ip=true := by
  induction addresses generalizing lastError with
  | nil => exact fun _ h => absurd h not_mem_nil
  | cons first rest ih =>
    rw [dialAll]
    split
    · exact ih _
    · rename_i hfirst
      have hallowed : directTargetAllowed client first.ip=true := by simpa using hfirst
      split
      · exact forall_mem_singleton.mpr hallowed
      · exact forall_mem_cons.mpr ⟨hallowed,ih _⟩

section Datagrams

variable {R : Type} {pkgs : RoutePackages R} {a : Association R}

theorem forward_allowed {sender sender' dst : SocketAddr} {buf payload : Bytes}
    {lookupHost : Option SocketAddr} {dnsResolve : Except String IpAddr}
    (h : .direct sender' dst payload∈forward pkgs a sender buf lookupHost dnsResolve) :
    directTargetAllowed a.controlPeer.ip dst.ip=true := by
  unfold forward at h
  split at h
  · cases h
  split at h
  · cases h
  · dsimp only at h
    split at h
    · split at h
      · rename_i hallowed
        cases mem_singleton.mp h
        exact hallowed
      · cases h
    · cases h
  · split at h
    · cases mem_singleton.mp h
    · split at h
      · cases mem_singleton.mp h
      · cases h

theorem round_allowed {s : Relay} {input : Input} {sender dst : SocketAddr} {payload : Bytes}
    (h : .direct sender dst payload∈(s.round pkgs a input).2) :
    directTargetAllowed a.controlPeer.ip dst.ip=true := by
  have hanswer : ∀ src data, .direct sender dst payload ∉ answer s src data := by
    intro src data hmem
    unfold answer at hmem
    split at hmem
    · cases mem_singleton.mp hmem
    · cases hmem
  unfold Relay.round at h
  split at h
  case h_2 =>
    split at h
    · cases mem_singleton.mp h
    · exact forward_allowed h
  case h_4 => exact absurd h (hanswer _ _)
  case h_6 => exact absurd h (hanswer _ _)
  all_goals cases h

/-- A client that is not on this machine makes the server dial or send to no
address of this machine, whatever the rules and the look-ups are. -/
theorem own_addresses_spared (pkgs : RoutePackages R) (a : Association R) (client : IpAddr)
    (hclient : ¬Loopback client) :
    (∀ lookupHost tcpConnect host port,
      ∀ address∈(connectDirect lookupHost tcpConnect host port client).attempts, ¬Own address.ip) ∧
    (a.controlPeer.ip=client → ∀ t s, (machine pkgs a).Run always t s →
      ∀ sender dst payload, .direct sender dst payload∈t → ¬Own dst.ip) := by
  constructor
  · intro lookupHost tcpConnect host port address hmem
    unfold connectDirect at hmem
    split at hmem
    · cases hmem
    · exact not_own_of_allowed hclient (dialAll_allowed client _ _ _ address hmem)
  · rintro rfl t s hrun sender dst payload hmem
    have hsafe := hrun.safe (fun _ => True) (fun e => ∀ sender dst payload,
        e=.direct sender dst payload → ¬Own dst.ip) (fun _ _ => trivial) ?_
    · exact hsafe.2 _ hmem sender dst payload rfl
    · rintro t s input s' new - - - hexec
      refine ⟨trivial,?_⟩
      rintro e he sender dst payload rfl
      rw [←(Prod.mk.inj (Option.some.inj hexec)).2] at he
      exact not_own_of_allowed hclient (round_allowed he)

end Datagrams

/-- A name with the loopback among its addresses, in the form of an IPv6 address. -/
def mixedHost (port : ℕ) : List SocketAddr :=
  [⟨.v6 (toIpv6Mapped (ipv4OfOctets 127 0 0 1)),port⟩,⟨.v4 (ipv4OfOctets 1 1 1 1),port⟩]

/-- The other address is dialled. -/
theorem own_addresses_spared_mapped :
    (connectDirect (fun _ port => .ok (mixedHost port)) (fun _ => .ok ()) "a.b".toList 80
      (.v4 (ipv4OfOctets 203 0 113 9))).attempts=[⟨.v4 (ipv4OfOctets 1 1 1 1),80⟩] ∧
    ¬Own (.v4 (ipv4OfOctets 1 1 1 1)) := by
  have hattempts : (connectDirect (fun _ port => .ok (mixedHost port)) (fun _ => .ok ())
      "a.b".toList 80 (.v4 (ipv4OfOctets 203 0 113 9))).attempts=
        [⟨.v4 (ipv4OfOctets 1 1 1 1),80⟩] := rfl
  refine ⟨hattempts,(own_addresses_spared plainPackages localAssociation _ ?_).1 _ _ _ _ _
    (hattempts ▸ List.mem_singleton_self _)⟩
  rintro ⟨meant,hmeans,hloopback⟩
  rw [←normalizeIp_of_means hmeans (.inl hloopback)] at hloopback
  exact absurd hloopback (by decide)

end MsnGuard.DirectTargets
