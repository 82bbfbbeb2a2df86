import MsnGuard.FiniteTables
import MsnGuard.RustText
import MsnGuard.TransitionRuns

/-!
# Packets that wait for a WireGuard session

A packet that is sent while there is no session is queued in the protocol state, which hands it
out later to a caller that passes it the empty datagram. No task of the tunnel does so.
-/

namespace MsnGuard.WireguardQueue

open RustText TransitionRuns List

/-- What the protocol state answers. -/
inductive TunnResult (π : Type) where
  | done
  | err
  | writeToNetwork (datagram : Bytes)
  | writeToTunnel (packet : π)

/-- The protocol state, of which the implementation is not ours. Two packets with the
same bytes are two. -/
structure Tunn (π : Type) where
  /-- The keys, the timers, the queue. -/
  State : Type
  /-- Is there a session to encrypt with? -/
  session : State → Bool
  /-- The packets that wait for a session. -/
  queue : State → List π
  /-- The packet in a datagram. -/
  carries : Bytes → Option π
  /-- Encrypt a packet. -/
  encapsulate : State → π → State × TunnResult π
  /-- Take a datagram in; the empty one asks for what is queued. -/
  decapsulate : State → Bytes → State × TunnResult π
  /-- Let time pass. -/
  updateTimers : State → State × TunnResult π

/-- The first bytes of the messages of WireGuard. -/
def messageType (first : UInt8) : Bool := decide (1≤first ∧ first≤4)

/-- Write the three reserved bytes of a message. -/
def setReserved (b₁ b₂ b₃ : UInt8) : Bytes → Bytes
  | first::x::y::z::rest =>
    if messageType first then first::b₁::b₂::b₃::rest else first::x::y::z::rest
  | short => short

/-- The reserved bytes of what goes out. -/
structure ClientId where
  b₁ : UInt8
  b₂ : UInt8
  b₃ : UInt8

/-- The reserved bytes name the client on the way out. -/
def injectClientId (id : ClientId) : Bytes → Bytes := setReserved id.b₁ id.b₂ id.b₃

/-- The reserved bytes are zero for the protocol. -/
def stripClientId : Bytes → Bytes := setReserved 0 0 0

theorem stripClientId_injectClientId (id : ClientId) (datagram : Bytes) :
    stripClientId (injectClientId id datagram)=stripClientId datagram := by
  unfold stripClientId injectClientId
  match datagram with
  | [] | [_] | [_,_] | [_,_,_] => rfl
  | first::x::y::z::rest =>
    by_cases h : messageType first=true <;> simp [setReserved,h]

/-- What is written for the network is a message as the protocol has it, and carries
that packet. -/
def Writes {π : Type} (tunn : Tunn π) (result : TunnResult π) (packet : Option π) : Prop :=
  ∀ datagram, result=.writeToNetwork datagram →
    stripClientId datagram=datagram ∧ tunn.carries datagram=packet

/-- What the protocol promises. -/
structure Contract {π : Type} (tunn : Tunn π) : Prop where
  /-- Without a session a packet is queued as long as there is room; what is written only
  asks for a session. -/
  queues : ∀ s p, tunn.session s=false → (tunn.queue (tunn.encapsulate s p).1=tunn.queue s++[p] ∨
      tunn.queue (tunn.encapsulate s p).1=tunn.queue s) ∧
    Writes tunn (tunn.encapsulate s p).2 none
  /-- With a session a packet is encrypted. -/
  encrypts : ∀ s p, tunn.session s=true → tunn.queue (tunn.encapsulate s p).1=tunn.queue s ∧
    Writes tunn (tunn.encapsulate s p).2 (some p)
  /-- A datagram is answered, and what is queued stays queued. -/
  answers : ∀ s d, d≠[] → tunn.queue (tunn.decapsulate s d).1=tunn.queue s ∧
    Writes tunn (tunn.decapsulate s d).2 none
  /-- With a session the empty datagram brings the next packet of the queue. -/
  flushes : ∀ s p rest, tunn.session s=true → tunn.queue s=p::rest →
    tunn.queue (tunn.decapsulate s []).1=rest ∧ Writes tunn (tunn.decapsulate s []).2 (some p)
  /-- Time brings a keepalive or a new request, or the queue is given up. -/
  ticks : ∀ s, (∀ p∈tunn.queue (tunn.updateTimers s).1, p∈tunn.queue s) ∧
    Writes tunn (tunn.updateTimers s).2 none

/-- As many failures in a row do not end the run. -/
def maxTransientRecvErrors : ℕ := 64

/-- What the socket gives the receiving task. -/
inductive Received where
  | datagram (bytes : Bytes)
  | transientError
  | error

/-- What can be seen of a run. -/
inductive Event (π : Type) where
  /-- A packet is encrypted or queued. -/
  | offered (packet : π) (session : Bool)
  /-- A datagram brought a session; these packets wait for it. -/
  | established (waiting : List π)
  | sent (datagram : Bytes)
  /-- A packet comes out of the tunnel. -/
  | inbound (packet : π)
  deriving DecidableEq

/-- The four tasks of a run. -/
inductive Task where
  | receiver | sender | timer | prober
  deriving DecidableEq

/-- A run of the tunnel. -/
structure World {π : Type} (tunn : Tunn π) where
  /-- The protocol state. -/
  state : tunn.State
  /-- The packets so far. -/
  offered : List π
  /-- Failures of the receiving task in a row. -/
  transientErrors : ℕ
  /-- What each task has to send next. -/
  pending : Task → Option Bytes
  /-- A task has ended, and the run with it. -/
  ended : Bool

/-- What may happen next. -/
inductive Action (π : Type) where
  | receive (received : Received)
  /-- The sending task takes a packet, or there will be none any more. -/
  | offer (packet : Option π)
  | tick
  /-- The probing task sends a packet of its own, or finds the tunnel stale. -/
  | probe (packet : Option π)
  /-- A task sends what it has. -/
  | send (task : Task)

section Run

variable {π : Type} {tunn : Tunn π}

/-- What a task sends next. -/
def TunnResult.next : TunnResult π → Option Bytes
  | .writeToNetwork datagram => some datagram
  | _ => none

/-- What comes out of the tunnel. -/
def TunnResult.inbound : TunnResult π → List (Event π)
  | .writeToTunnel packet => [.inbound packet]
  | _ => []

namespace World

/-- A task goes on with what the protocol answered it. -/
def proceed (w : World tunn) (task : Task) (answer : tunn.State × TunnResult π) : World tunn :=
  {w with
    state := answer.1
    pending := Function.update w.pending task answer.2.next}

/-- A task has a packet encrypted or queued; without one it ends. -/
def encapsulate (w : World tunn) (task : Task) : Option π → World tunn × List (Event π)
  | none => ({w with ended := true},[])
  | some p =>
    ({w.proceed task (tunn.encapsulate w.state p) with offered := p::w.offered},
      [.offered p (tunn.session w.state)])

/-- The receiving task takes a datagram in. -/
def decapsulate (w : World tunn) (bytes : Bytes) : World tunn × List (Event π) :=
  let answer := tunn.decapsulate w.state (stripClientId bytes)
  ({w.proceed .receiver answer with transientErrors := 0},
    (if tunn.session w.state=false ∧ tunn.session answer.1=true then
      [.established (tunn.queue w.state)] else [])++answer.2.inbound)

/-- The receiving task goes on with what the socket gives it. -/
def receive (w : World tunn) : Received → World tunn × List (Event π)
  | .datagram [] => (w,[])
  | .datagram (first::rest) => w.decapsulate (first::rest)
  | .transientError =>
    ({w with
      transientErrors := w.transientErrors+1
      ended := decide (maxTransientRecvErrors<w.transientErrors+1)},[])
  | .error => ({w with ended := true},[])

/-- A task with something to send does nothing else before. -/
def unlessBusy (w : World tunn) (task : Task) (next : World tunn × List (Event π)) :
    Option (World tunn × List (Event π)) :=
  if w.ended ∨ (w.pending task).isSome then none else some next

/-- One step of a run. -/
def exec (id : ClientId) (w : World tunn) : Action π → Option (World tunn × List (Event π))
  | .receive received => w.unlessBusy .receiver (w.receive received)
  | .offer packet => w.unlessBusy .sender (w.encapsulate .sender packet)
  | .tick => w.unlessBusy .timer (w.proceed .timer (tunn.updateTimers w.state),[])
  | .probe packet => w.unlessBusy .prober (w.encapsulate .prober packet)
  | .send task =>
    if w.ended then none
    else (w.pending task).map fun datagram =>
      ({w with pending := Function.update w.pending task none},[.sent (injectClientId id datagram)])

end World

/-- A packet is handed over once. -/
def Action.fresh (w : World tunn) : Action π → Prop
  | .offer (some p) | .probe (some p) => p ∉ w.offered
  | _ => True

/-- The run of a tunnel. At its start packets may be queued, and a session may be there. -/
def machine (tunn : Tunn π) (id : ClientId) : Machine (World tunn) (Action π) (Event π) where
  start w := ∃ s, w=⟨s,tunn.queue s,0,fun _ => none,false⟩
  allowed w a := a.fresh w
  exec := World.exec id

end Run

/-- What waits when a session comes is handed to the socket after it. -/
def HandedOver {π : Type} (tunn : Tunn π) (t : List (Event π)) : Prop :=
  ∀ front waiting back, t=front++.established waiting::back →
    ∀ p∈waiting, ∃ datagram, .sent datagram∈back ∧ tunn.carries (stripClientId datagram)=some p

/-- No packet waits when a session comes. -/
def NoneWaiting {π : Type} (t : List (Event π)) : Prop :=
  ∀ waiting, .established waiting∈t → waiting=[]

variable {π : Type} {tunn : Tunn π}

/-- A packet that was queued and not encrypted. -/
def Queued (t : List (Event π)) (w : World tunn) (p : π) : Prop :=
  p∈w.offered ∧ .offered p true ∉ t

/-- A datagram carries no packet but one that was encrypted when it was handed over. -/
def Direct (tunn : Tunn π) (t : List (Event π)) (datagram : Bytes) : Prop :=
  ∀ p, tunn.carries (stripClientId datagram)=some p → .offered p true∈t

/-- Packets are queued or encrypted, and only encrypted ones are sent. -/
structure Sound (t : List (Event π)) (w : World tunn) : Prop where
  queue : ∀ p∈tunn.queue w.state, Queued t w p
  waiting : ∀ waiting, .established waiting∈t → ∀ p∈waiting, Queued t w p
  seen : ∀ p session, .offered p session∈t → p∈w.offered
  pending : ∀ task datagram, w.pending task=some datagram → Direct tunn t datagram
  sent : ∀ datagram, .sent datagram∈t → Direct tunn t datagram

theorem stripClientId_cons (first : UInt8) (rest : Bytes) : stripClientId (first::rest)≠[] := by
  unfold stripClientId
  match rest with
  | [] | [_] | [_,_] => simp [setReserved]
  | x::y::z::rest' => by_cases h : messageType first=true <;> simp [setReserved,h]

theorem Direct.append {t new : List (Event π)} {datagram : Bytes} (h : Direct tunn t datagram) :
    Direct tunn (t++new) datagram :=
  fun p hp => mem_append_left _ (h p hp)

/-- What the protocol writes is direct if what it carries was encrypted. -/
theorem Writes.direct {result : TunnResult π} {packet : Option π} {t : List (Event π)}
    (h : Writes tunn result packet) (hpacket : ∀ p, packet=some p → .offered p true∈t)
    {datagram : Bytes} (hnext : result.next=some datagram) : Direct tunn t datagram := by
  intro p hp
  cases result with
  | writeToNetwork d =>
    obtain rfl : d=datagram := Option.some_inj.mp hnext
    obtain ⟨hstrip,hcarries⟩ := h d rfl
    rw [hstrip,hcarries] at hp
    exact hpacket p hp
  | done | err | writeToTunnel => cases hnext

namespace Sound

variable {t : List (Event π)} {w w' : World tunn}

section

variable (h : Sound t w)

include h

/-- A step that offers no packet. -/
theorem quiet {new : List (Event π)} (hoffered : w'.offered=w.offered)
    (hnew : ∀ p session, .offered p session ∉ new)
    (hqueue : ∀ p∈tunn.queue w'.state, p∈tunn.queue w.state)
    (hwaiting : ∀ waiting, .established waiting∈new → waiting=tunn.queue w.state)
    (hpending : ∀ task datagram, w'.pending task=some datagram → Direct tunn t datagram)
    (hsent : ∀ datagram, .sent datagram∈new → Direct tunn t datagram) : Sound (t++new) w' := by
  have hqueued : ∀ {p}, Queued t w p → Queued (t++new) w' p := by
    rintro p ⟨hp,hdirect⟩
    refine ⟨hoffered ▸ hp,fun hmem => ?_⟩
    rcases mem_append.mp hmem with hold | hadded
    · exact hdirect hold
    · exact hnew p true hadded
  constructor
  · intro p hp
    exact hqueued (h.queue p (hqueue p hp))
  · intro waiting hmem p hp
    rcases mem_append.mp hmem with hold | hadded
    · exact hqueued (h.waiting waiting hold p hp)
    · rw [hwaiting waiting hadded] at hp
      exact hqueued (h.queue p hp)
  · intro p session hmem
    rcases mem_append.mp hmem with hold | hadded
    · exact hoffered ▸ h.seen p session hold
    · exact absurd hadded (hnew p session)
  · intro task datagram hdatagram
    exact (hpending task datagram hdatagram).append
  · intro datagram hmem
    rcases mem_append.mp hmem with hold | hadded
    · exact (h.sent datagram hold).append
    · exact (hsent datagram hadded).append

/-- What a task has to send after the protocol answered it. -/
theorem pending_proceed {task : Task} {answer : tunn.State × TunnResult π}
    (hwrites : Writes tunn answer.2 none) (other : Task) (datagram : Bytes)
    (hdatagram : (w.proceed task answer).pending other=some datagram) : Direct tunn t datagram := by
  rcases FiniteTables.update_eq_some hdatagram with ⟨-,hnext⟩ | ⟨-,hold⟩
  · exact hwrites.direct (by simp) hnext
  · exact h.pending other datagram hold

/-- A packet is handed over for the first time. -/
theorem encapsulate (hc : Contract tunn) (task : Task) {p : π}
    (hfresh : p ∉ w.offered) :
    Sound (t++[.offered p (tunn.session w.state)]) (w.encapsulate task (some p)).1 := by
  have hqueued : ∀ {q}, Queued t w q →
      Queued (t++[.offered p (tunn.session w.state)]) (w.encapsulate task (some p)).1 q := by
    rintro q ⟨hq,hdirect⟩
    refine ⟨mem_cons_of_mem _ hq,fun hmem => ?_⟩
    rcases mem_append.mp hmem with hold | hadded
    · exact hdirect hold
    · obtain ⟨rfl,-⟩ := Event.offered.inj (mem_singleton.mp hadded)
      exact hfresh hq
  constructor
  · intro q hq
    change q∈tunn.queue (tunn.encapsulate w.state p).1 at hq
    cases hsession : tunn.session w.state with
    | true =>
      rw [(hc.encrypts _ p hsession).1] at hq
      exact hsession ▸ hqueued (h.queue q hq)
    | false =>
      have hcases : q∈tunn.queue w.state ∨ q=p := by
        rcases (hc.queues _ p hsession).1 with hroom | hfull
        · rw [hroom,mem_append,mem_singleton] at hq
          exact hq
        · rw [hfull] at hq
          exact .inl hq
      rcases hcases with hold | rfl
      · exact hsession ▸ hqueued (h.queue q hold)
      · refine ⟨mem_cons_self,fun hmem => ?_⟩
        rcases mem_append.mp hmem with hold | hadded
        · exact hfresh (h.seen q true hold)
        · cases mem_singleton.mp hadded
  · intro waiting hmem q hq
    have hold : .established waiting∈t := by simpa using hmem
    exact hqueued (h.waiting waiting hold q hq)
  · intro q session hmem
    rcases mem_append.mp hmem with hold | hadded
    · exact mem_cons_of_mem _ (h.seen q session hold)
    · obtain ⟨rfl,-⟩ := Event.offered.inj (mem_singleton.mp hadded)
      exact mem_cons_self
  · intro other datagram hdatagram
    rcases FiniteTables.update_eq_some hdatagram with ⟨-,hnext⟩ | ⟨-,hold⟩
    · cases hsession : tunn.session w.state with
      | true =>
        refine (hc.encrypts _ p hsession).2.direct ?_ hnext
        rintro q ⟨⟩
        exact mem_append_right _ (mem_singleton_self _)
      | false => exact (hc.queues _ p hsession).2.direct (by simp) hnext
    · exact (h.pending other datagram hold).append
  · intro datagram hmem
    have hold : .sent datagram∈t := by simpa using hmem
    exact (h.sent datagram hold).append

/-- A task that ends leaves everything else. -/
theorem same (hstate : w'.state=w.state) (hoffered : w'.offered=w.offered)
    (hpending : w'.pending=w.pending) : Sound (t++[]) w' := by
  refine h.quiet hoffered (by simp) (fun p hp => ?_) (by simp) (fun task datagram hd => ?_)
    (by simp)
  · rwa [hstate] at hp
  · rw [hpending] at hd
    exact h.pending task datagram hd

theorem offer (hc : Contract tunn) (task : Task) {packet : Option π}
    (hfresh : ∀ p, packet=some p → p ∉ w.offered) :
    Sound (t++(w.encapsulate task packet).2) (w.encapsulate task packet).1 := by
  cases packet with
  | none => exact h.same rfl rfl rfl
  | some p => exact h.encapsulate hc task (hfresh p rfl)

theorem decapsulate (hc : Contract tunn) (first : UInt8) (rest : Bytes) :
    Sound (t++(w.decapsulate (first::rest)).2) (w.decapsulate (first::rest)).1 := by
  obtain ⟨hqueue,hwrites⟩ := hc.answers w.state _ (stripClientId_cons first rest)
  have hevents : ∀ ev∈(w.decapsulate (first::rest)).2,
      ev=.established (tunn.queue w.state) ∨ ∃ p, ev=.inbound p := by
    intro ev hev
    rcases mem_append.mp hev with hfirst | hsecond
    · split at hfirst
      · exact .inl (mem_singleton.mp hfirst)
      · cases hfirst
    · cases hresult : (tunn.decapsulate w.state (stripClientId (first::rest))).2 with
      | writeToTunnel p =>
        rw [hresult] at hsecond
        exact .inr ⟨p,mem_singleton.mp hsecond⟩
      | done | err | writeToNetwork =>
        rw [hresult] at hsecond
        cases hsecond
  refine h.quiet rfl ?_ (fun p hp => ?_) ?_ (h.pending_proceed hwrites) ?_
  · intro p session hmem
    rcases hevents _ hmem with heq | ⟨q,heq⟩ <;> cases heq
  · change p∈tunn.queue (tunn.decapsulate _ _).1 at hp
    rwa [hqueue] at hp
  · intro waiting hmem
    rcases hevents _ hmem with heq | ⟨q,heq⟩
    · exact Event.established.inj heq
    · cases heq
  · intro datagram hmem
    rcases hevents _ hmem with heq | ⟨q,heq⟩ <;> cases heq

theorem receive (hc : Contract tunn) (received : Received) :
    Sound (t++(w.receive received).2) (w.receive received).1 := by
  match received with
  | .datagram [] => exact h.same rfl rfl rfl
  | .datagram (first::rest) => exact h.decapsulate hc first rest
  | .transientError => exact h.same rfl rfl rfl
  | .error => exact h.same rfl rfl rfl

theorem tick (hc : Contract tunn) : Sound (t++[]) (w.proceed .timer (tunn.updateTimers w.state)) :=
  h.quiet rfl (by simp) (hc.ticks w.state).1 (by simp) (h.pending_proceed (hc.ticks w.state).2)
    (by simp)

theorem send (id : ClientId) {task : Task} {datagram : Bytes}
    (hdatagram : w.pending task=some datagram) :
    Sound (t++[.sent (injectClientId id datagram)])
      {w with pending := Function.update w.pending task none} := by
  refine h.quiet rfl (by simp) (fun p hp => hp) (by simp) ?_ ?_
  · intro other d hd
    rcases FiniteTables.update_eq_some hd with ⟨-,hnone⟩ | ⟨-,hold⟩
    · cases hnone
    · exact h.pending other d hold
  · intro d hd
    obtain rfl := Event.sent.inj (mem_singleton.mp hd)
    have hdirect := h.pending task datagram hdatagram
    unfold Direct
    rwa [stripClientId_injectClientId]

theorem step (hc : Contract tunn) {id : ClientId} {a : Action π}
    (hfresh : a.fresh w) {new : List (Event π)} (hexec : w.exec id a=some (w',new)) :
    Sound (t++new) w' := by
  have hbusy : ∀ {task : Task} {next : World tunn × List (Event π)},
      w.unlessBusy task next=some (w',new) → next=(w',new) := by
    intro task next hnext
    unfold World.unlessBusy at hnext
    split_ifs at hnext
    exact Option.some_inj.mp hnext
  cases a with
  | receive received =>
    obtain ⟨rfl,rfl⟩ := Prod.mk.inj (hbusy hexec)
    exact h.receive hc received
  | offer packet =>
    obtain ⟨rfl,rfl⟩ := Prod.mk.inj (hbusy hexec)
    refine h.offer hc .sender ?_
    rintro p rfl
    exact hfresh
  | tick =>
    cases hbusy hexec
    exact h.tick hc
  | probe packet =>
    obtain ⟨rfl,rfl⟩ := Prod.mk.inj (hbusy hexec)
    refine h.offer hc .prober ?_
    rintro p rfl
    exact hfresh
  | send task =>
    simp only [World.exec] at hexec
    split_ifs at hexec
    obtain ⟨datagram,hdatagram,heq⟩ := Option.map_eq_some_iff.mp hexec
    cases heq
    exact h.send id hdatagram

end

end Sound

theorem sound_of_run (hc : Contract tunn) {id : ClientId} {t : List (Event π)} {w : World tunn}
    (h : (machine tunn id).Run always t w) : Sound t w := by
  refine h.invariant Sound ?_ ?_
  · rintro w ⟨s,rfl⟩
    exact ⟨fun p hp => ⟨hp,by simp⟩,by simp,by simp,by simp,by simp⟩
  · intro t w a w' new hsound hfresh _ hexec
    exact hsound.step hc hfresh hexec

/-- What waits when a session comes is handed to the socket in a run exactly if nothing
ever waits then: what was queued is not sent. -/
theorem handedOver_iff (hc : Contract tunn) {id : ClientId} {t : List (Event π)} {w : World tunn}
    (h : (machine tunn id).Run always t w) : HandedOver tunn t ↔ NoneWaiting t := by
  have hsound := sound_of_run hc h
  constructor
  · intro hhanded waiting hmem
    obtain ⟨front,back,rfl⟩ := List.append_of_mem hmem
    by_contra hne
    obtain ⟨p,hp⟩ := List.exists_mem_of_ne_nil waiting hne
    obtain ⟨datagram,hsent,hcarries⟩ := hhanded front waiting back rfl p hp
    have hmem' : .sent datagram∈front++.established waiting::back :=
      List.mem_append_right _ (List.mem_cons_of_mem _ hsent)
    exact (hsound.waiting waiting hmem p hp).2 (hsound.sent datagram hmem' p hcarries)
  · intro hnone front waiting back heq p hp
    have hmem : .established waiting∈t := by
      rw [heq]
      exact List.mem_append_right _ List.mem_cons_self
    rw [hnone waiting hmem] at hp
    cases hp

/-- A protocol that meets the contract: a request and a response make a session, and a
packet is carried as it is. -/
def plainTunn : Tunn Bytes where
  State := Bool × List Bytes
  session := Prod.fst
  queue := Prod.snd
  carries
    | 4::0::0::0::1::packet => some packet
    | _ => none
  encapsulate s packet :=
    if s.1 then (s,.writeToNetwork (4::0::0::0::1::packet))
    else ((s.1,s.2++[packet]),.writeToNetwork [1,0,0,0])
  decapsulate s datagram :=
    match datagram,s with
    | [],(true,packet::rest) => ((true,rest),.writeToNetwork (4::0::0::0::1::packet))
    | [],_ => (s,.done)
    | first::_,_ => if first=2 then ((true,s.2),.writeToNetwork [4,0,0,0,0]) else (s,.err)
  updateTimers s := (s,.done)

theorem plainTunn_writes {d : Bytes} (hstrip : stripClientId d=d) :
    Writes plainTunn (.writeToNetwork d) (plainTunn.carries d) := by
  rintro _ ⟨⟩
  exact ⟨hstrip,rfl⟩

theorem plainTunn_contract : Contract plainTunn where
  queues s p hsession := by
    have heq : plainTunn.encapsulate s p=((s.1,s.2++[p]),.writeToNetwork [1,0,0,0]) :=
      if_neg (Bool.eq_false_iff.mp hsession)
    rw [heq]
    exact ⟨.inl rfl,plainTunn_writes rfl⟩
  encrypts s p hsession := by
    have heq : plainTunn.encapsulate s p=(s,.writeToNetwork (4::0::0::0::1::p)) :=
      if_pos hsession
    rw [heq]
    exact ⟨rfl,plainTunn_writes rfl⟩
  answers s d hd := by
    match d,hd with
    | first::rest,_ =>
      have heq : plainTunn.decapsulate s (first::rest)=
        if first=2 then ((true,s.2),.writeToNetwork [4,0,0,0,0]) else (s,.err) := rfl
      rw [heq]
      split
      · exact ⟨rfl,plainTunn_writes rfl⟩
      · exact ⟨rfl,nofun⟩
  flushes s p rest hsession hqueue := by
    obtain ⟨session,queue⟩ := s
    obtain rfl : session=true := hsession
    obtain rfl : queue=p::rest := hqueue
    exact ⟨rfl,plainTunn_writes rfl⟩
  ticks s := ⟨fun p hp => hp,nofun⟩

/-- Is a packet new? -/
def freshCheck (w : World plainTunn) : Action Bytes → Bool
  | .offer (some p) | .probe (some p) => !w.offered.contains p
  | _ => true

theorem fresh_of_check {w : World plainTunn} {a : Action Bytes} (h : freshCheck w a=true) :
    a.fresh w := by
  match a,h with
  | .offer (some p),h | .probe (some p),h =>
    have hnew : p ∉ w.offered := by simpa [freshCheck] using h
    exact hnew
  | .offer none,_ | .probe none,_ | .receive _,_ | .tick,_ | .send _,_ => trivial

/-- The tunnel before its first session. -/
def unconnected : World plainTunn := ⟨(false,[]),[],0,fun _ => none,false⟩

/-- What actions lead to is a history of a run. -/
theorem run_of_replay {P : List (Event Bytes) → World plainTunn → Prop}
    [∀ t w, Decidable (P t w)] (actions : List (Action Bytes))
    (h : ((machine plainTunn ⟨7,8,9⟩).replay freshCheck unconnected actions).any
      (fun r => decide (P r.2 r.1))=true) :
    ∃ t w, (machine plainTunn ⟨7,8,9⟩).Run always t w ∧ P t w :=
  Machine.exists_run freshCheck (fun _ _ _ ha => ⟨fresh_of_check ha,trivial⟩) ⟨(false,[]),rfl⟩
    actions h

/-- The session comes before the first packet. -/
theorem session_first : ∃ t w, (machine plainTunn ⟨7,8,9⟩).Run always t w ∧
    .established []∈t ∧ .sent [4,7,8,9,1,5]∈t ∧ HandedOver plainTunn t := by
  obtain ⟨t,w,hrun,ht⟩ : ∃ t w, (machine plainTunn ⟨7,8,9⟩).Run always t w ∧
      t=[.established [],.sent [4,7,8,9,0],.offered [5] true,.sent [4,7,8,9,1,5]] :=
    run_of_replay [.receive (.datagram [2,0,0,0]),.send .receiver,.offer (some [5]),.send .sender]
      (by decide +kernel)
  have hnone : NoneWaiting t := by
    rw [ht]
    intro waiting hmem
    simpa using hmem
  exact ⟨t,w,hrun,by simp [ht],by simp [ht],(handedOver_iff plainTunn_contract hrun).mpr hnone⟩

/-- A packet is queued while the session is asked for; the response comes and the next
packet is sent, and nobody has anything left to send but the first packet is in no
datagram. It still waits: the empty datagram would bring it. -/
theorem first_packet_lost : ∃ t w, (machine plainTunn ⟨7,8,9⟩).Run always t w ∧
    ¬HandedOver plainTunn t ∧ (∀ task, w.pending task=none) ∧
    (plainTunn.decapsulate w.state []).2=.writeToNetwork [4,0,0,0,1,5] := by
  obtain ⟨t,w,hrun,ht,hpending,hstate⟩ : ∃ t w, (machine plainTunn ⟨7,8,9⟩).Run always t w ∧
      t=[.offered [5] false,.sent [1,7,8,9],.established [[5]],.sent [4,7,8,9,0],
        .offered [6] true,.sent [4,7,8,9,1,6]] ∧
      (∀ task∈[Task.receiver,.sender,.timer,.prober], w.pending task=none) ∧
      plainTunn.session w.state=true ∧ plainTunn.queue w.state=[[5]] :=
    run_of_replay [.offer (some [5]),.send .sender,.receive (.datagram [2,0,0,0]),.send .receiver,
      .offer (some [6]),.send .sender] (by decide +kernel)
  have hwaits : w.state=(true,[[5]]) := Prod.ext hstate.1 hstate.2
  refine ⟨t,w,hrun,?_,fun task => hpending task (by cases task <;> decide),hwaits ▸ rfl⟩
  intro hhanded
  obtain ⟨datagram,hsent,hcarries⟩ := hhanded [.offered [5] false,.sent [1,7,8,9]] [[5]]
    [.sent [4,7,8,9,0],.offered [6] true,.sent [4,7,8,9,1,6]] ht [5] (List.mem_singleton_self _)
  have hcases : datagram=[4,7,8,9,0] ∨ datagram=[4,7,8,9,1,6] := by simpa using hsent
  rcases hcases with rfl | rfl
  · cases hcarries
  · cases hcarries

end MsnGuard.WireguardQueue
