import MsnGuard.NetstackHandles

/-!
# Local ports

Local ports come from one counter that goes through 49152 to 65000 and begins again. Two sockets
of one protocol get the same port exactly when one is opened while another is there that was
opened a multiple of 15849 allocations earlier.
-/

namespace MsnGuard.NetstackPorts

open IpAddresses FiniteTables HandleRegistry TransitionRuns
open NetstackModel NetStack NetstackSteps NetstackHandles SimulatedSockets

variable {σ υ : Type} (pkg : SocketPackage σ υ) (cfg : Config)

/-- The number of local ports. -/
def portCount : ℕ := 15849

/-- The port of an allocation, by the number of allocations before it. -/
def portOf (n : ℕ) : ℕ := 49152+n % portCount

theorem allocPort_portOf (n : ℕ) : allocPort (portOf n)=portOf (n+1) := by
  unfold allocPort portOf portCount
  split <;> omega

/-- Two allocations with the same port are a multiple of the number of ports apart. -/
theorem portOf_eq {m n : ℕ} (hle : m≤n) (h : portOf m=portOf n) : (n-m) % portCount=0 := by
  unfold portOf portCount at *
  omega

/-- Allocations and ports: the counter follows the number of allocations, and
every socket has the port of the allocation for its connection. -/
structure Placed (t : List Event) (s : NetStack σ υ) : Prop where
  /-- The counter. -/
  next : s.nextPort=portOf (allocations t).length
  /-- The sockets. -/
  port : ∀ k h l, (registry s).owner k=some h → (registry s).live h=some l →
    ∃ n, (allocations t)[n]?=some (some k.2) ∧ l.2=portOf n

/-- When a socket is opened, no connection of the same protocol is left that was
opened a multiple of the number of ports earlier. -/
def Spaced (t : List Event) (s : NetStack σ υ) (a : Action σ υ) : Prop :=
  ∀ p, Opens pkg s a p → ∀ id handle n, handleOf s (p,id)=some handle →
    (allocations t)[n]?=some (some id) → ((allocations t).length-n) % portCount≠0

/-- No two live sockets have the same protocol and port. -/
def PortsDistinct (s : NetStack σ υ) : Prop :=
  ∀ h h' l, (registry s).live h=some l → (registry s).live h'=some l → h=h'

section Steps

variable {s s' : NetStack σ υ} {t new : List Event} {a : Action σ υ}

theorem lt_of_getElem {α : Type} {xs : List α} {n : ℕ} {x : α} (h : xs[n]?=some x) :
    n<xs.length := (List.getElem?_eq_some_iff.mp h).1

/-- An allocation moves the counter on. -/
theorem next_placed {used : Option ℕ} (hplaced : Placed t s)
    (hport : s'.nextPort=allocPort s.nextPort) (hnew : allocations new=[used]) :
    s'.nextPort=portOf (allocations (t++new)).length := by
  rw [hport,hplaced.next,allocPort_portOf,allocations_append,hnew,List.length_append,
    List.length_singleton]

theorem Placed.moved (hplaced : Placed t s) (hs : HandlesOk s)
    (h : Moved pkg s a s' (allocations new)) : Placed (t++new) s' := by
  have hkeep : ∀ k h l, (registry s).owner k=some h → (registry s).live h=some l →
      ∃ n, (allocations (t++new))[n]?=some (some k.2) ∧ l.2=portOf n := by
    intro k h l hk hl
    rcases hplaced.port k h l hk hl with ⟨n,hn,hport⟩
    rw [allocations_append]
    exact ⟨n,(List.getElem?_append_left (lt_of_getElem hn)).trans hn,hport⟩
  generalize hused : allocations new=used at h
  cases h with
  | stay hreg hid hport =>
    constructor
    · rw [hport,hplaced.next,allocations_append,hused,List.append_nil]
    · rw [hreg]
      exact hkeep
  | burn hreg hid hport =>
    constructor
    · exact next_placed hplaced hport hused
    · rw [hreg]
      exact hkeep
  | @opened p handle hopens hlive hreg hid hport =>
    constructor
    · exact next_placed hplaced hport hused
    · intro k h l hk hl
      rw [hreg,Registry.add_owner] at hk
      rw [hreg,Registry.add_live] at hl
      by_cases heq : k=(p,s.nextId)
      · rw [heq,Function.update_self] at hk
        cases hk
        rw [Function.update_self] at hl
        cases hl
        refine ⟨(allocations t).length,?_,hplaced.next⟩
        rw [allocations_append,hused,heq,List.getElem?_concat_length]
      · rw [Function.update_of_ne heq] at hk
        have hother : h≠handle := by
          intro hsame
          rcases hs.exact.live_of_owner k h hk with ⟨l',hl',-⟩
          rw [hsame,hlive] at hl'
          cases hl'
        rw [Function.update_of_ne hother] at hl
        exact hkeep k h l hk hl
  | @removed k' handle howner hreg hid hport =>
    constructor
    · rw [hport,hplaced.next,allocations_append,hused,List.append_nil]
    · intro k h l hk hl
      rw [hreg,Registry.release_owner] at hk
      rw [hreg,Registry.release_live] at hl
      by_cases heq : k=k'
      · rw [heq,Function.update_self] at hk
        cases hk
      · rw [Function.update_of_ne heq] at hk
        rw [Function.update_of_ne (hs.exact.ne_of_ne howner hk heq)] at hl
        exact hkeep k h l hk hl

/-- A step that meets the condition keeps the ports distinct. -/
theorem PortsDistinct.moved (hdistinct : PortsDistinct s) (hplaced : Placed t s) (hs : HandlesOk s)
    (hcond : Spaced pkg t s a) {used : List (Option ℕ)} (h : Moved pkg s a s' used) :
    PortsDistinct s' := by
  cases h with
  | stay hreg hid hport | burn hreg hid hport =>
    unfold PortsDistinct
    rw [hreg]
    exact hdistinct
  | @opened p handle hopens hlive hreg hid hport =>
    -- A socket with the new port would be too old.
    have hnew : ∀ h, (registry s).live h≠some (p,s.nextPort) := by
      intro h hl
      rcases hs.exact.owner_of_live h _ hl with ⟨k,hk⟩
      rcases hs.exact.live_of_owner k h hk with ⟨l,hl',hproto⟩
      rw [hl] at hl'
      cases hl'
      rcases hplaced.port k h _ hk hl with ⟨n,hn,hsame⟩
      have hkey : k=(p,k.2) := Prod.ext hproto rfl
      have hlater := hcond p hopens k.2 h n (by rw [handleOf_eq,←hkey]; exact hk) hn
      rw [hplaced.next] at hsame
      exact hlater (portOf_eq (lt_of_getElem hn).le hsame.symm)
    intro h h' l hl hl'
    rw [hreg,Registry.add_live] at hl hl'
    by_cases heq : h=handle
    · by_cases heq' : h'=handle
      · rw [heq,heq']
      · rw [heq,Function.update_self] at hl
        rw [Function.update_of_ne heq',←hl] at hl'
        exact absurd hl' (hnew h')
    · by_cases heq' : h'=handle
      · rw [heq',Function.update_self] at hl'
        rw [Function.update_of_ne heq,←hl'] at hl
        exact absurd hl (hnew h)
      · rw [Function.update_of_ne heq] at hl
        rw [Function.update_of_ne heq'] at hl'
        exact hdistinct h h' l hl hl'
  | @removed k' handle howner hreg hid hport =>
    intro h h' l hl hl'
    rw [hreg,Registry.release_live] at hl hl'
    have hold : ∀ x, Function.update (registry s).live handle none x=some l →
        (registry s).live x=some l := by
      intro x hx
      by_cases heq : x=handle
      · rw [heq,Function.update_self] at hx
        cases hx
      · rw [Function.update_of_ne heq] at hx
        exact hx
    exact hdistinct h h' l (hold h hl) (hold h' hl')

end Steps

/-- In a run in which no socket is opened while one of its protocol is left that
was opened a multiple of 15849 allocations earlier, no two live sockets of one
protocol have the same local port. -/
theorem ports_distinct {t : List Event} {s : NetStack σ υ}
    (h : (machine pkg cfg).Run (Spaced pkg) t s) :
    ∀ handle handle' x y, s.sockets.lookup handle=some x → s.sockets.lookup handle'=some y →
      shape x=shape y → handle=handle' := by
  have hall : HandlesOk s ∧ Placed t s ∧ PortsDistinct s := by
    refine Machine.Run.invariant (fun t s => HandlesOk s ∧ Placed t s ∧ PortsDistinct s) ?_ ?_ h
    · intro s hs
      rcases hs with ⟨v4,v6,rfl⟩
      have hok := @handlesOk_spawn σ υ cfg v4 v6
      have hlive : ∀ h, (registry (spawn cfg v4 v6 : NetStack σ υ)).live h=none := fun _ => rfl
      refine ⟨hok,⟨rfl,?_⟩,?_⟩
      · intro k h l _ hl
        rw [hlive] at hl
        cases hl
      · intro h h' l hl
        rw [hlive] at hl
        cases hl
    · intro t s a s' new hok ha hcond he
      have hmoved := effect_moved pkg cfg (exec_effect pkg cfg ha he)
      exact ⟨hok.1.moved pkg hmoved,hok.2.1.moved pkg hok.1 hmoved,
        hok.2.2.moved pkg hok.2.1 hok.1 hcond hmoved⟩
  intro handle handle' x y hx hy hshape
  refine hall.2.2 handle handle' (shape x) (view_of_lookup hx) ?_
  rw [hshape]
  exact view_of_lookup hy

/-- A stack with a single UDP connection, and where the port counter stands. -/
def lone (port : ℕ) (phase : Phase) : NetStack SimTcp Unit where
  iface := simIface
  sockets := AList.singleton 0 (.udp () 49152)
  tcpConns := ∅
  udpConns := AList.singleton 1 ⟨0,.empty 128⟩
  nextId := 2
  nextPort := port
  dataIn := .empty 128
  deferred := []
  phase := phase

/-- A turn of the loop with a single UDP connection. -/
def loneTurn : List (Action SimTcp Unit) :=
  [.stack (.poll (AList.singleton 0 (.udp () 49152)) 0 []),.stack (.beginUdp [1]),
    .stack (.serviceUdp still),.stack .beginDrain,.stack .drain]

def notCommand : Action SimTcp Unit → Bool
  | .stack (.command _ _ _) => false
  | _ => true

/-- The counter goes on with every request that cannot be carried out, while the
connection stays. -/
theorem run_counter (n : ℕ) : ∃ t, simMachine.Run always t (lone (portOf (n+1)) .selecting) := by
  induction n with
  | zero =>
    exact ⟨_,(Machine.Run.start sim_start).replay passes_always
      (request (.openUdp ⟨true⟩)++loneTurn) rfl⟩
  | succ n ih =>
    rcases ih with ⟨t,hrun⟩
    rw [←allocPort_portOf]
    exact ⟨_,hrun.replay passes_always
      (.stack (.command (.openTcp ⟨peer.ip,0⟩ ⟨true⟩) 1 0)::loneTurn) rfl⟩

/-- A UDP connection is kept while 15848 requests fail; the next UDP connection
gets the same local port. -/
theorem kept_port_given_again : ∃ t s, simMachine.Run always t s ∧
    ∃ handle handle' x y, handle≠handle' ∧ s.sockets.lookup handle=some x ∧
      s.sockets.lookup handle'=some y ∧ shape x=shape y := by
  rcases run_counter 15848 with ⟨t,hrun⟩
  rw [show portOf (15848+1)=49152 by decide] at hrun
  have hopened := hrun.next (.stack (.command (.openUdp ⟨true⟩) 1 0)) rfl trivial rfl
  exact ⟨_,_,hopened,0,1,.udp () 49152,.udp () 49152,by decide,rfl,rfl,rfl⟩

/-- Two UDP connections opened one after the other have different ports. -/
theorem two_ports_distinct : ∃ t s, simMachine.Run (Spaced simPackage) t s ∧
    s.sockets.lookup 0=some (.udp () 49152) ∧ s.sockets.lookup 1=some (.udp () 49153) ∧
    ∀ handle handle' x y, s.sockets.lookup handle=some x → s.sockets.lookup handle'=some y →
      shape x=shape y → handle=handle' := by
  have hplain : ∀ t s a, (passes s a && notCommand a)=true →
      simMachine.allowed s a ∧ Spaced simPackage t s a := by
    intro t s a h
    rw [Bool.and_eq_true] at h
    refine ⟨allowed_of_passes h.1,fun p hopens => ?_⟩
    unfold Opens at hopens
    split at hopens
    · cases h.2
    · cases h.2
    · exact hopens.elim
  have hidle : simMachine.Run (Spaced simPackage) [] {simStart with phase := .selecting} :=
    (Machine.Run.start sim_start).replay hplain (.stack (.poll ∅ 0 [])::endTurn) rfl
  have hopened := hidle.next (.stack (.command (.openUdp ⟨true⟩) 0 0)) rfl
    (fun p _ id handle n hid => by cases p <;> cases hid) rfl
  have hfirst : simMachine.Run (Spaced simPackage) [.allocated 49152 (some 1),.answered (.ok 1)]
      (lone 49153 .selecting) := hopened.replay hplain loneTurn rfl
  have hsecond : Spaced simPackage [.allocated 49152 (some 1),.answered (.ok 1)]
      (lone 49153 .selecting) (.stack (.command (.openUdp ⟨true⟩) 1 0)) := by
    intro p _ id handle n _ hn
    have hlt : n<1 := lt_of_getElem hn
    have hzero : n=0 := by omega
    rw [hzero]
    decide
  have hrun := hfirst.next (.stack (.command (.openUdp ⟨true⟩) 1 0)) rfl hsecond rfl
  exact ⟨_,_,hrun,rfl,rfl,ports_distinct simPackage simConfig hrun⟩

end MsnGuard.NetstackPorts
