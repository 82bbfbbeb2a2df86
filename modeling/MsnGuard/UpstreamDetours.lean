import MsnGuard.FiniteTables
import MsnGuard.SocksDatagrams
import MsnGuard.TransitionRuns

/-!
# Datagrams through the upstream proxy

A socket that has to go through the upstream proxy gets a detour: a shim on the loopback
interface, and an entry in a table under the address of the socket. The entry goes with the
guard of the detour, but also when the pump ends by itself.
-/

namespace MsnGuard.UpstreamDetours

open RustText IpAddresses RoutingRules SocksDatagrams TransitionRuns FiniteTables Option Function

variable {address : SocketAddr}

/-- An entry of the table. -/
structure Detour where
  /-- The number of the detour. -/
  id : ℕ
  /-- Where the socket sends instead. -/
  shim : SocketAddr
  /-- The far end. -/
  peer : SocketAddr
  deriving DecidableEq

/-- The table of the process, by the local address of the socket. -/
abbrev Detours := SocketAddr → Option Detour

/-- Where a datagram for an address is sent. -/
def relayTarget (map : Detours) (address intended : SocketAddr) : SocketAddr :=
  ((map address).map Detour.shim).getD intended

/-- Where a datagram is from, the shim standing for the far end. -/
def realSource (map : Detours) (address observed : SocketAddr) : SocketAddr :=
  match map address with
  | some detour => if detour.shim=observed then detour.peer else observed
  | none => observed

/-- Take the entry of an address out, if it is still the one of the given number. -/
def forgetDetour (map : Detours) (client : SocketAddr) (id : ℕ) : Detours :=
  if (map client).any (fun detour => detour.id == id) then Function.update map client none else map

/-- The ends of a detour that was set up. -/
structure Route where
  /-- The socket that takes the detour. -/
  client : SocketAddr
  /-- The shim before the pump. -/
  shim : SocketAddr
  /-- The far end. -/
  peer : SocketAddr
  /-- The shim is on this machine. -/
  shim_loopback : isLoopback shim.ip=true
  /-- The far end is not local. -/
  peer_public : isPrivate peer.ip=false

/-- The loopback address of the family of a socket. -/
def loopbackFor : IpAddr → IpAddr
  | .v4 _ => .v4 (ipv4OfOctets 127 0 0 1)
  | .v6 _ => .v6 1

theorem isLoopback_loopbackFor (ip : IpAddr) : isLoopback (loopbackFor ip)=true := by
  cases ip <;> rfl

/-- What the attempt to attach a detour leads to. -/
inductive Attachment where
  /-- No detour is needed. -/
  | undetoured
  /-- The proxy opens no relay, or there is no socket for the shim. -/
  | failed
  | detoured (route : Route)

/-- Open a relay at the proxy and a shim before it, unless the far end is local. -/
def attachDetourVia (client peer : SocketAddr) (associated : Bool) (shimPort : Option ℕ) :
    Attachment :=
  if hpeer : isPrivate peer.ip=true then .undetoured
  else if associated then
    match shimPort with
    | some port =>
      .detoured ⟨client,⟨loopbackFor client.ip,port⟩,peer,isLoopback_loopbackFor _,
        Bool.eq_false_iff.mpr hpeer⟩
    | none => .failed
  else .failed

/-- A detour is only attached when a proxy is configured. -/
def attachDetour (configured : Bool) (client peer : SocketAddr) (associated : Bool)
    (shimPort : Option ℕ) : Attachment :=
  if configured then attachDetourVia client peer associated shimPort else .undetoured

/-- Is a datagram at the shim from the socket that takes the detour? -/
def fromDetouredSocket (client origin : SocketAddr) : Bool :=
  origin.port == client.port &&
    (origin.ip == client.ip || (isUnspecified client.ip && isLoopback origin.ip))

/-- What wakes the pump, with the result of the send it may lead to. -/
inductive PumpInput where
  /-- The shim has a datagram, or fails. -/
  | shim (read : Option (Bytes × SocketAddr)) (sent : Bool)
  /-- The relay has a datagram, or fails. -/
  | relay (read : Option Bytes) (sent : Bool)

/-- What goes out. A datagram of a socket is kept with the far end of its detour,
if it has one with a live guard. -/
inductive Event where
  | sent (socket : ℕ) (guarded : Option SocketAddr) (target : SocketAddr)
  | relayed (framed : Bytes)
  | returned (target : SocketAddr) (payload : Bytes)
  deriving DecidableEq

/-- One round of the pump: where answers go from now on, or nothing when it ends. -/
def pumpRound (route : Route) (replyTo : Option SocketAddr) :
    PumpInput → Option (Option SocketAddr) × List Event
  | .shim none _ => (none,[])
  | .shim (some (data,origin)) sent =>
    if fromDetouredSocket route.client origin then
      if sent then (some (some origin),[.relayed (encodeUdpHeader route.peer++data)])
      else (none,[])
    else (some replyTo,[])
  | .relay none _ => (none,[])
  | .relay (some framed) sent =>
    match decodeUdpHeader framed with
    -- a malformed header is no reason to stop
    | none => (some replyTo,[])
    | some (_,offset) =>
      match replyTo with
      | some target =>
        if sent then (some replyTo,[.returned target ((framed.drop offset).take 65535)])
        else (none,[])
      | none => (some replyTo,[])

/-- A socket operation that this round comes to fails. -/
def PumpInput.Fails (route : Route) (replyTo : Option SocketAddr) : PumpInput → Prop
  | .shim none _ => True
  | .shim (some (_,origin)) sent => fromDetouredSocket route.client origin=true ∧ sent=false
  | .relay none _ => True
  | .relay (some framed) sent =>
    (decodeUdpHeader framed).isSome=true ∧ replyTo.isSome=true ∧ sent=false

/-- The task of a pump. -/
inductive Pump where
  | running (replyTo : Option SocketAddr)
  /-- The pump has ended, and the table is not changed yet. -/
  | ended
  | gone
  deriving DecidableEq

/-- A detour with its guard and its task. -/
structure Hold where
  /-- The ends of the detour. -/
  route : Route
  /-- Is the guard still held? -/
  guard : Bool
  /-- The task behind the shim. -/
  pump : Pump

/-- An open socket. -/
structure Sock where
  /-- The address it is bound to. -/
  address : SocketAddr
  /-- The address it is connected to. -/
  connected : Option SocketAddr
  /-- The detour attached to it. -/
  detour : Option ℕ

/-- The sockets, the detours and the table of a process. -/
structure World where
  /-- The table. -/
  detours : Detours
  /-- The number of the next detour. -/
  nextId : ℕ
  /-- The detours that were set up, by number. -/
  holds : ℕ → Option Hold
  /-- The open sockets. -/
  sockets : ℕ → Option Sock

/-- The process before its first socket. -/
def World.initial : World := ⟨fun _ => none,1,fun _ => none,fun _ => none⟩

/-- The far end of the detour of a socket, while its guard is held. -/
def World.guardedPeer (w : World) (s : Sock) : Option SocketAddr :=
  s.detour.bind fun id => (w.holds id).bind fun h => if h.guard then some h.route.peer else none

/-- What the tasks of the process do, one step each. -/
inductive Action where
  | bind (i : ℕ) (address : SocketAddr)
  | attach (i : ℕ) (peer : SocketAddr) (configured associated : Bool) (shimPort : Option ℕ)
  | connect (i : ℕ) (intended : SocketAddr)
  | sendJunk (i : ℕ) (peer : SocketAddr)
  | flush (i : ℕ) (intended : SocketAddr)
  | pump (id : ℕ) (input : PumpInput)
  /-- The task of a pump that ended retires its detour. -/
  | forget (id : ℕ)
  /-- The task of a pump is stopped after its guard is gone. -/
  | aborted (id : ℕ)
  | dropGuard (id : ℕ)
  | close (i : ℕ)

namespace World

/-- Set up the detour of a socket. -/
def insert (w : World) (i : ℕ) (s : Sock) (route : Route) : World where
  detours := Function.update w.detours s.address (some ⟨w.nextId,route.shim,route.peer⟩)
  nextId := w.nextId+1
  holds := Function.update w.holds w.nextId (some ⟨route,true,.running none⟩)
  sockets := Function.update w.sockets i (some {s with detour := some w.nextId})

/-- Change one detour. -/
def setHold (w : World) (id : ℕ) (h : Hold) : World :=
  {w with holds := Function.update w.holds id (some h)}

/-- Take the entry of a detour out of the table. -/
def retire (w : World) (id : ℕ) (h : Hold) : World :=
  {w with detours := forgetDetour w.detours h.route.client id}

/-- One step of the process. -/
def exec (w : World) : Action → Option (World × List Event)
  | .bind i address =>
    match w.sockets i with
    | none => some ({w with sockets := Function.update w.sockets i (some ⟨address,none,none⟩)},[])
    | some _ => none
  | .attach i peer configured associated shimPort =>
    (w.sockets i).map fun s =>
      match attachDetour configured s.address peer associated shimPort with
      | .detoured route => (w.insert i s route,[])
      | .undetoured | .failed => (w,[])
  | .connect i intended =>
    (w.sockets i).map fun s =>
      let target := relayTarget w.detours s.address intended
      ({w with sockets := Function.update w.sockets i (some {s with connected := some target})},[])
  | .sendJunk i peer =>
    (w.sockets i).map fun s =>
      (w,[.sent i (w.guardedPeer s) (s.connected.getD (relayTarget w.detours s.address peer))])
  | .flush i intended =>
    (w.sockets i).map fun s =>
      (w,[.sent i (w.guardedPeer s) (relayTarget w.detours s.address intended)])
  | .pump id input =>
    (w.holds id).bind fun h =>
      match h.pump with
      | .running replyTo =>
        let round := pumpRound h.route replyTo input
        some (w.setHold id {h with pump := (round.1.map Pump.running).getD .ended},round.2)
      | _ => none
  | .forget id =>
    (w.holds id).bind fun h =>
      match h.pump with
      | .ended => some ((w.retire id h).setHold id {h with pump := .gone},[])
      | _ => none
  | .aborted id =>
    (w.holds id).bind fun h =>
      match h.guard,h.pump with
      | false,.running _ => some (w.setHold id {h with pump := .gone},[])
      | _,_ => none
  | .dropGuard id =>
    (w.holds id).bind fun h =>
      if h.guard then some ((w.retire id h).setHold id {h with guard := false},[]) else none
  | .close i =>
    (w.sockets i).map fun _ => ({w with sockets := Function.update w.sockets i none},[])

end World

/-- What the surroundings keep to: no two open sockets have one address, and a
detour is attached to a socket before anything else is done with it, once. -/
def Action.Offered (w : World) : Action → Prop
  | .bind _ address => ∀ j s, w.sockets j=some s → s.address≠address
  | .attach i _ _ _ _ => ∀ s, w.sockets i=some s → s.connected=none ∧ s.detour=none
  | _ => True

/-- The process as a machine. -/
def machine : Machine World Action Event where
  start w := w=World.initial
  allowed w a := a.Offered w
  exec := World.exec

/-- A datagram of a socket with a live guard is not for the far end itself. -/
def Event.Detoured : Event → Prop
  | .sent _ (some peer) target => target≠peer
  | _ => True

/-- No look-up for a socket with a live guard gives the far end itself. -/
def World.Covered (w : World) : Prop :=
  ∀ i s peer, w.sockets i=some s → w.guardedPeer s=some peer →
    relayTarget w.detours s.address peer≠peer

/-- No operation of a pump fails while the guard of its detour is held. -/
def PumpsHold (_ : List Event) (w : World) : Action → Prop
  | .pump id input => ∀ h replyTo, w.holds id=some h → h.pump=.running replyTo →
      h.guard=true → ¬input.Fails h.route replyTo
  | _ => True

theorem isPrivate_of_isLoopback {ip : IpAddr} (h : isLoopback ip=true) : isPrivate ip=true := by
  cases ip with
  | v4 a =>
    have hfirst : octet a 0=127 := by simpa [isLoopback] using h
    simp [isPrivate,hfirst]
  | v6 a =>
    have hone : a=1 := by simpa [isLoopback] using h
    simp [isPrivate,hone]

theorem Route.shim_ne_peer (route : Route) : route.shim≠route.peer := by
  intro heq
  have hpriv := isPrivate_of_isLoopback route.shim_loopback
  rw [heq,route.peer_public] at hpriv
  cases hpriv

variable {map : Detours} {detour : Detour}

theorem relayTarget_entry (h : map address=some detour) (intended : SocketAddr) :
    relayTarget map address intended=detour.shim := by
  rw [relayTarget,h]
  rfl

/-- The answers to what went to the shim are taken for answers of the far end. -/
theorem realSource_relayTarget (h : map address=some detour) (intended : SocketAddr) :
    realSource map address (relayTarget map address intended)=detour.peer := by
  simp [realSource,relayTarget_entry h,h]

/-- Forgetting one detour keeps the entries of the others. -/
theorem forgetDetour_other (h : map address=some detour) {client : SocketAddr} {id : ℕ}
    (hid : detour.id≠id) : forgetDetour map client id address=some detour := by
  unfold forgetDetour
  split
  · rename_i hany
    rcases eq_or_ne address client with rfl | hne
    · exact absurd (by simpa [h] using hany) hid
    · rw [update_of_ne hne,h]
  · exact h

theorem pumpRound_ended_iff (route : Route) (replyTo : Option SocketAddr) (input : PumpInput) :
    (pumpRound route replyTo input).1=none ↔ input.Fails route replyTo := by
  cases input with
  | shim read sent =>
    cases read with
    | none => simp [pumpRound,PumpInput.Fails]
    | some datagram =>
      by_cases horigin : fromDetouredSocket route.client datagram.2=true <;>
        cases sent <;> simp [pumpRound,PumpInput.Fails,horigin]
  | relay read sent =>
    cases read with
    | none => simp [pumpRound,PumpInput.Fails]
    | some framed =>
      cases hdecode : decodeUdpHeader framed <;> cases replyTo <;> cases sent <;>
        simp [pumpRound,PumpInput.Fails,hdecode]

/-- What the pump sends is not sent by a socket that takes a detour. -/
theorem pumpRound_detoured (route : Route) (replyTo : Option SocketAddr) (input : PumpInput) :
    ∀ e∈(pumpRound route replyTo input).2, e.Detoured := by
  intro e he
  cases e with
  | sent i guarded target =>
    unfold pumpRound at he
    repeat' split at he
    all_goals simp at he
  | relayed framed | returned target payload => trivial

/-- What holds between the sockets, the detours and the table. -/
structure World.Sound (w : World) : Prop where
  /-- While its guard is held, the detour of a socket is in the table, and the
  socket is connected to nothing but the shim. -/
  listed : ∀ i s id, w.sockets i=some s → s.detour=some id → ∃ h, w.holds id=some h ∧
    (h.guard=true → w.detours s.address=some ⟨id,h.route.shim,h.route.peer⟩ ∧
      ∀ c, s.connected=some c → c=h.route.shim)
  /-- Open sockets have different addresses. -/
  apart : ∀ i j s s', w.sockets i=some s → w.sockets j=some s' → s.address=s'.address → i=j
  /-- Numbers are not used twice. -/
  fresh : ∀ id h, w.holds id=some h → id<w.nextId
  /-- A pump only ends after its guard is gone. -/
  ended : ∀ id h, w.holds id=some h → h.pump=.ended → h.guard=false

namespace World.Sound

variable {w : World}
variable {i id : ℕ} {s : Sock} {h h' : Hold}

theorem initial : World.initial.Sound where
  listed := by simp [World.initial]
  apart := by simp [World.initial]
  fresh := by simp [World.initial]
  ended := by simp [World.initial]

section

variable (hw : w.Sound)

include hw

/-- The entry and the shim of a guarded socket. -/
theorem guarded {peer : SocketAddr} (hs : w.sockets i=some s)
    (hpeer : w.guardedPeer s=some peer) : ∃ (id : ℕ) (route : Route), route.peer=peer ∧
      w.detours s.address=some ⟨id,route.shim,route.peer⟩ ∧
      ∀ c, s.connected=some c → c=route.shim := by
  obtain ⟨id,hid,hbind⟩ := bind_eq_some_iff.mp hpeer
  obtain ⟨h,hold,hguard⟩ := bind_eq_some_iff.mp hbind
  obtain ⟨h',hold',hlisted⟩ := hw.listed i s id hs hid
  cases hold.symm.trans hold'
  by_cases hheld : h.guard=true
  · rw [if_pos hheld] at hguard
    exact ⟨id,h.route,some.inj hguard,hlisted hheld⟩
  · rw [if_neg hheld] at hguard
    cases hguard

theorem covered : w.Covered := by
  intro i s peer hs hpeer
  obtain ⟨id,route,rfl,hentry,_⟩ := hw.guarded hs hpeer
  rw [relayTarget_entry hentry]
  exact route.shim_ne_peer

/-- A look-up or a connection of a guarded socket leads to the shim. -/
theorem detoured_sent (hs : w.sockets i=some s) (intended target : SocketAddr)
    (htarget : target=relayTarget w.detours s.address intended ∨
      s.connected=some target) : (Event.sent i (w.guardedPeer s) target).Detoured := by
  cases hpeer : w.guardedPeer s with
  | none => trivial
  | some peer =>
    obtain ⟨id,route,rfl,hentry,hconnected⟩ := hw.guarded hs hpeer
    rw [relayTarget_entry hentry] at htarget
    have hshim : target=route.shim := htarget.elim (fun h => h) (hconnected target)
    rw [hshim]
    exact route.shim_ne_peer

/-- One detour changes and the entries of the others stay. -/
theorem setHold {map : Detours} (hold : w.holds id=some h)
    (hroute : h'.route=h.route) (hguard : h'.guard=true → h.guard=true)
    (hended : h'.pump=.ended → h'.guard=false)
    (hmap : ∀ address detour, w.detours address=some detour → detour.id≠id ∨ h'.guard=true →
      map address=some detour) :
    (World.setHold {w with detours := map} id h').Sound where
  listed := by
    intro i s id' hs hid
    obtain ⟨g,hg,hlisted⟩ := hw.listed i s id' hs hid
    rcases eq_or_ne id' id with rfl | hne
    · cases hold.symm.trans hg
      refine ⟨h',by simp [World.setHold],fun hheld => ?_⟩
      obtain ⟨hentry,hconnected⟩ := hlisted (hguard hheld)
      rw [hroute]
      exact ⟨hmap _ _ hentry (.inr hheld),hconnected⟩
    · refine ⟨g,by simp [World.setHold,hne,hg],fun hheld => ?_⟩
      obtain ⟨hentry,hconnected⟩ := hlisted hheld
      exact ⟨hmap _ _ hentry (.inl hne),hconnected⟩
  apart := hw.apart
  fresh := by
    intro id' g hg
    rcases update_eq_some hg with ⟨rfl,_⟩ | ⟨_,hg'⟩
    · exact hw.fresh _ _ hold
    · exact hw.fresh _ _ hg'
  ended := by
    intro id' g hg hpump
    rcases update_eq_some hg with ⟨rfl,hnew⟩ | ⟨_,hg'⟩
    · cases hnew
      exact hended hpump
    · exact hw.ended _ _ hg' hpump

/-- A detour whose guard is gone afterwards is taken out of the table. -/
theorem retire (hold : w.holds id=some h) (hroute : h'.route=h.route)
    (hguard : h'.guard=false) : ((w.retire id h).setHold id h').Sound := by
  refine hw.setHold hold hroute (by simp [hguard]) (fun _ => hguard) ?_
  intro address detour hentry hother
  exact forgetDetour_other hentry (hother.resolve_right (by simp [hguard]))

/-- One socket is opened or closed or changes its connection. -/
theorem setSocket (i : ℕ) (new : Option Sock)
    (hdetour : ∀ s, new=some s → ∀ id, s.detour=some id → ∃ old, w.sockets i=some old ∧
      old.detour=some id ∧ old.address=s.address)
    (hconnected : ∀ s c, new=some s → s.connected=some c →
      ∃ intended, c=relayTarget w.detours s.address intended)
    (hapart : ∀ s, new=some s → ∀ j s', j≠i → w.sockets j=some s' → s'.address≠s.address) :
    ({w with sockets := update w.sockets i new} : World).Sound where
  __ := hw
  listed := by
    intro j s id hs hid
    rcases update_eq_some hs with ⟨rfl,hnew⟩ | ⟨_,hold⟩
    · obtain ⟨old,hold,holdid,haddress⟩ := hdetour s hnew id hid
      obtain ⟨h,hh,hlisted⟩ := hw.listed j old id hold holdid
      refine ⟨h,hh,fun hheld => ?_⟩
      have hentry := (hlisted hheld).1
      rw [haddress] at hentry
      refine ⟨hentry,fun c hc => ?_⟩
      obtain ⟨intended,rfl⟩ := hconnected s c hnew hc
      exact relayTarget_entry hentry intended
    · exact hw.listed j s id hold hid
  apart := by
    intro j k s s' hs hs' haddress
    rcases update_eq_some hs with ⟨rfl,hnew⟩ | ⟨hj,hold⟩ <;>
      rcases update_eq_some hs' with ⟨rfl,hnew'⟩ | ⟨hk,hold'⟩
    · rfl
    · exact absurd haddress.symm (hapart s hnew k s' hk hold')
    · exact absurd haddress (hapart s' hnew' j s hj hold)
    · exact hw.apart j k s s' hold hold' haddress

/-- A new detour for an open socket that is not connected yet. -/
theorem insert {i : ℕ} {s : Sock} (hs : w.sockets i=some s)
    (hconnected : s.connected=none) (route : Route) : (w.insert i s route).Sound where
  listed := by
    intro j s' id hs' hid
    rcases update_eq_some hs' with ⟨rfl,hnew⟩ | ⟨hne,hold⟩
    · cases hnew
      cases hid
      refine ⟨⟨route,true,.running none⟩,by simp [World.insert],fun _ => ?_⟩
      exact ⟨by simp [World.insert],fun c hc => by simp [hconnected] at hc⟩
    · obtain ⟨h,hh,hlisted⟩ := hw.listed j s' id hold hid
      have hid' : id≠w.nextId := (hw.fresh id h hh).ne
      have haddress : s'.address≠s.address := fun heq => hne (hw.apart j i s' s hold hs heq)
      refine ⟨h,by simp [World.insert,hid',hh],fun hheld => ?_⟩
      obtain ⟨hentry,hc⟩ := hlisted hheld
      exact ⟨by simp [World.insert,haddress,hentry],hc⟩
  apart := by
    intro j k r r' hr hr' haddress
    rcases update_eq_some hr with ⟨rfl,hnew⟩ | ⟨_,hold⟩ <;>
      rcases update_eq_some hr' with ⟨rfl,hnew'⟩ | ⟨_,hold'⟩
    · rfl
    · cases hnew
      exact hw.apart j k s r' hs hold' haddress
    · cases hnew'
      exact hw.apart j k r s hold hs haddress
    · exact hw.apart j k r r' hold hold' haddress
  fresh := by
    intro id h hh
    rcases update_eq_some hh with ⟨rfl,_⟩ | ⟨_,hold⟩
    · exact Nat.lt_succ_self _
    · exact (hw.fresh id h hold).trans (Nat.lt_succ_self _)
  ended := by
    intro id h hh hpump
    rcases update_eq_some hh with ⟨rfl,hnew⟩ | ⟨_,hold⟩
    · cases hnew
      cases hpump
    · exact hw.ended id h hold hpump

/-- A socket is bound to an address that no open socket has. -/
theorem bind (i : ℕ) {address : SocketAddr}
    (hnew : ∀ j s, w.sockets j=some s → s.address≠address) :
    ({w with sockets := update w.sockets i (some ⟨address,none,none⟩)} : World).Sound := by
  refine hw.setSocket i _ ?_ ?_ ?_
  · rintro s ⟨⟩ id ⟨⟩
  · rintro s c ⟨⟩ ⟨⟩
  · rintro s ⟨⟩ j s' _ hj
    exact hnew j s' hj

/-- A socket is connected to what the table gives for it. -/
theorem connect (hs : w.sockets i=some s) (intended : SocketAddr) :
    ({w with
      sockets := update w.sockets i
        (some {s with connected := some (relayTarget w.detours s.address intended)})} :
      World).Sound := by
  refine hw.setSocket i _ ?_ ?_ ?_
  · rintro s' ⟨⟩ id hid
    exact ⟨s,hs,hid,rfl⟩
  · rintro s' c ⟨⟩ ⟨⟩
    exact ⟨intended,rfl⟩
  · rintro s' ⟨⟩ j r hne hr haddress
    exact hne (hw.apart j i r s hr hs haddress)

/-- A pump goes on, or it ends after its guard is gone. -/
theorem pumped {replyTo : Option SocketAddr} {input : PumpInput}
    (hold : w.holds id=some h) (hfine : h.guard=true → ¬input.Fails h.route replyTo) :
    (w.setHold id {h with
      pump := ((pumpRound h.route replyTo input).1.map Pump.running).getD .ended}).Sound := by
  refine hw.setHold hold rfl (fun hheld => hheld) ?_ (fun _ _ hentry _ => hentry)
  intro hended
  have hstopped : (pumpRound h.route replyTo input).1=none := by
    cases hround : (pumpRound h.route replyTo input).1 with
    | none => rfl
    | some next => simp [hround] at hended
  by_contra hheld
  exact hfine (by simpa using hheld) ((pumpRound_ended_iff _ _ _).mp hstopped)

end

end World.Sound

/-- One step keeps the invariant, and what it sends takes the detours. -/
theorem exec_sound {t : List Event} {w w' : World} {a : Action} {new : List Event} (hw : w.Sound)
    (hoffered : a.Offered w) (hcond : PumpsHold t w a) (hexec : w.exec a=some (w',new)) :
    w'.Sound ∧ ∀ e∈new, e.Detoured := by
  cases a with
  | bind i address =>
    cases hi : w.sockets i with
    | some s => simp [World.exec,hi] at hexec
    | none =>
      simp only [World.exec,hi] at hexec
      cases hexec
      exact ⟨hw.bind i hoffered,by simp⟩
  | attach i peer configured associated shimPort =>
    obtain ⟨s,hs,hresult⟩ := map_eq_some_iff.mp hexec
    split at hresult
    · cases hresult
      exact ⟨hw.insert hs (hoffered s hs).1 _,by simp⟩
    all_goals
      cases hresult
      exact ⟨hw,by simp⟩
  | connect i intended =>
    obtain ⟨s,hs,hresult⟩ := map_eq_some_iff.mp hexec
    cases hresult
    exact ⟨hw.connect hs intended,by simp⟩
  | sendJunk i peer =>
    obtain ⟨s,hs,hresult⟩ := map_eq_some_iff.mp hexec
    cases hresult
    refine ⟨hw,fun e he => ?_⟩
    obtain rfl := List.mem_singleton.mp he
    refine hw.detoured_sent hs peer _ ?_
    cases s.connected with
    | none => exact .inl rfl
    | some c => exact .inr rfl
  | flush i intended =>
    obtain ⟨s,hs,hresult⟩ := map_eq_some_iff.mp hexec
    cases hresult
    refine ⟨hw,fun e he => ?_⟩
    obtain rfl := List.mem_singleton.mp he
    exact hw.detoured_sent hs intended _ (.inl rfl)
  | pump id input =>
    obtain ⟨h,hold,hresult⟩ := bind_eq_some_iff.mp hexec
    split at hresult
    · rename_i replyTo hpump
      cases hresult
      exact ⟨hw.pumped hold (hcond h replyTo hold hpump),pumpRound_detoured _ _ _⟩
    · cases hresult
  | forget id =>
    obtain ⟨h,hold,hresult⟩ := bind_eq_some_iff.mp hexec
    split at hresult
    · rename_i hpump
      cases hresult
      exact ⟨hw.retire hold rfl (hw.ended id h hold hpump),by simp⟩
    · cases hresult
  | aborted id =>
    obtain ⟨h,hold,hresult⟩ := bind_eq_some_iff.mp hexec
    split at hresult
    · cases hresult
      exact ⟨hw.setHold hold rfl (fun hheld => hheld) (by simp) (fun _ _ hentry _ => hentry),by simp⟩
    · cases hresult
  | dropGuard id =>
    obtain ⟨h,hold,hresult⟩ := bind_eq_some_iff.mp hexec
    split_ifs at hresult
    cases hresult
    exact ⟨hw.retire hold rfl rfl,by simp⟩
  | close i =>
    obtain ⟨s,_,hresult⟩ := map_eq_some_iff.mp hexec
    cases hresult
    exact ⟨hw.setSocket i none (by simp) (by simp) (by simp),by simp⟩

/-- In every run in which no pump fails while its guard is held, no look-up for a
socket with a live guard gives the far end itself, and no datagram of such a
socket went there. -/
theorem detoured_of_run {t : List Event} {w : World} (h : machine.Run PumpsHold t w) :
    w.Covered ∧ ∀ e∈t, e.Detoured := by
  have hsafe := h.safe World.Sound Event.Detoured
    (by
      rintro w rfl
      exact World.Sound.initial)
    (fun _ _ _ _ _ => exec_sound)
  exact ⟨hsafe.1.covered,hsafe.2⟩

/-- A socket bound to no particular address. -/
def sampleAddress : SocketAddr := ⟨.v4 0,5000⟩

/-- A far end outside. -/
def samplePeer : SocketAddr := ⟨.v4 (ipv4OfOctets 162 159 192 1),2408⟩

/-- A detour for the socket. -/
def sampleRoute : Route where
  client := sampleAddress
  shim := ⟨.v4 (ipv4OfOctets 127 0 0 1),40000⟩
  peer := samplePeer
  shim_loopback := by decide
  peer_public := by decide

/-- The process with one socket. -/
def boundWorld : World :=
  {World.initial with
    sockets := Function.update World.initial.sockets 0 (some ⟨sampleAddress,none,none⟩)}

/-- The socket has its detour, and the guard is held. -/
def detouredWorld : World := boundWorld.insert 0 ⟨sampleAddress,none,none⟩ sampleRoute

/-- A socket gets its detour. -/
theorem run_detoured {cond : List Event → World → Action → Prop}
    (hbind : cond [] World.initial (.bind 0 sampleAddress))
    (hattach : cond [] boundWorld (.attach 0 samplePeer true true (some 40000))) :
    machine.Run cond [] detouredWorld := by
  have hstart : machine.Run cond [] World.initial := .start rfl
  have hbound : machine.Run cond [] boundWorld :=
    hstart.next (.bind 0 sampleAddress) nofun hbind rfl
  refine hbound.next (.attach 0 samplePeer true true (some 40000)) ?_ hattach rfl
  rintro s ⟨⟩
  exact ⟨rfl,rfl⟩

/-- While the pump works, a datagram goes to the shim. -/
theorem working_pump_detours : (Event.sent 0 (some samplePeer) sampleRoute.shim).Detoured := by
  have hsent : machine.Run PumpsHold [.sent 0 (some samplePeer) sampleRoute.shim] detouredWorld :=
    (run_detoured trivial trivial).next (.flush 0 samplePeer) trivial trivial rfl
  exact (detoured_of_run hsent).2 _ (List.mem_singleton.mpr rfl)

/-- The relay of the proxy fails, the pump ends and takes the entry away, and the
next datagram of the socket goes to the far end although the guard is held. -/
theorem failed_pump_exposes : ∃ t w, machine.Run always t w ∧ ¬w.Covered ∧ ¬∀ e∈t, e.Detoured := by
  let hold : Hold := ⟨sampleRoute,true,.ended⟩
  have hended : machine.Run always [] (detouredWorld.setHold 1 hold) :=
    (run_detoured trivial trivial).next (.pump 1 (.relay none true)) trivial trivial rfl
  have hforgotten := hended.next (.forget 1) trivial trivial rfl
  have hsent := hforgotten.next (.flush 0 samplePeer) trivial trivial rfl
  refine ⟨_,_,hsent,fun hcovered => ?_,fun hdetoured => ?_⟩
  · exact hcovered 0 _ samplePeer rfl rfl rfl
  · exact hdetoured (.sent 0 (some samplePeer) samplePeer) (List.mem_singleton.mpr rfl) rfl

end MsnGuard.UpstreamDetours
