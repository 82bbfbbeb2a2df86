import MsnGuard.CapsuleStreams
import MsnGuard.TransitionRuns

/-!
# When a tunnel is ready

Whoever waits for a tunnel is told that it is ready after two batches of packets have come back
through it. The carrier over HTTP/2 looks at the packets it counts, the one over HTTP/3 takes
every datagram of the right stream and context for a packet.
-/

namespace MsnGuard.TunnelReadiness

open OctetsVarint MasqueCapsules CapsuleStreams TransitionRuns List Option

/-- Batches that have to come back. -/
def DATA_PROBE_REQUIRED_SUCCESSES : ℕ := 2

/-- What can be seen of a tunnel. -/
inductive Event where
  /-- What a batch was found to contain. -/
  | received (packets : List Bytes)
  | ready
  | returned (ok : Bool)
  deriving DecidableEq

/-- What the environment sets. -/
structure Settings where
  dataCheck : Bool
  validationTimeout : ℕ
  keepaliveTimeout : ℕ

/-- The variables of a loop that are about the validation. -/
structure Validation where
  /-- Somebody waits and has not been told. -/
  readyTx : Bool
  readyFired : Bool
  validateSuccesses : ℕ
  validateDeadline : Option ℕ

namespace Validation

def new (readyTx : Bool) : Validation := ⟨readyTx,false,0,none⟩

def fire (v : Validation) : Validation × List Event :=
  ({v with readyTx := false,readyFired := true},if v.readyTx then [.ready] else [])

/-- The request for the tunnel has been made. -/
def requested (v : Validation) (c : Settings) (now : ℕ) : Validation × List Event :=
  if c.dataCheck then ({v with validateDeadline := some (now+c.validationTimeout)},[])
  else if v.readyFired then (v,[])
  else v.fire

def timedOut (v : Validation) (c : Settings) (now : ℕ) : Bool :=
  c.dataCheck && !v.readyFired && v.validateDeadline.any (·≤now)

/-- A batch is over. -/
def confirm (v : Validation) (gotData : Bool) : Validation × List Event :=
  if gotData && !v.readyFired then
    if DATA_PROBE_REQUIRED_SUCCESSES≤v.validateSuccesses+1 then
      fire {v with validateSuccesses := v.validateSuccesses+1,validateDeadline := none}
    else ({v with validateSuccesses := v.validateSuccesses+1},[])
  else (v,[])

end Validation

inductive Phase where
  | connecting
  | looping
  | returned
  deriving DecidableEq

/-- What the owner of a tunnel asks for. -/
inductive Control where
  | migrate
  | close
  deriving DecidableEq

section Http2

/-- The tunnel over HTTP/2. -/
structure H2 where
  validation : Validation
  capsules : CapsuleParser
  awaitingPong : Bool
  pongDeadline : Option ℕ
  phase : Phase

/-- What the loop wakes up for, and how it goes. -/
inductive H2Arm where
  | keepalive (sent : Bool)
  | pong (ok : Bool)
  | probe
  | pongTimer
  | ctrl (message : Option Control)
  | senderOutcome (ok : Bool)
  | data (chunk : Bytes) (trySend : ℕ → TrySend)
  | bodyError
  | bodyEnd

inductive H2Action where
  | connect (now : ℕ) (ok : Bool)
  | turn (now : ℕ) (arm : H2Arm)

namespace H2

variable (c : Settings) (s : H2)

def finish (ok : Bool) : H2 × List Event := ({s with phase := .returned},[.returned ok])

/-- One branch of the loop. Nothing when its guard keeps it out. -/
def select (now : ℕ) : H2Arm → Option (H2 × List Event)
  | .keepalive sent =>
    if s.validation.readyFired && !s.awaitingPong then
      some (if sent then
        {s with awaitingPong := true,pongDeadline := some (now+c.keepaliveTimeout)} else s,[])
    else none
  | .pong ok =>
    if s.awaitingPong then
      some (if ok then ({s with awaitingPong := false,pongDeadline := none},[])
        else s.finish false)
    else none
  | .probe => if c.dataCheck && !s.validation.readyFired then some (s,[]) else none
  | .pongTimer => s.pongDeadline.map fun _ => (s,[])
  | .ctrl (some .migrate) => some (s,[])
  | .ctrl _ => some (s.finish true)
  | .senderOutcome ok => some (s.finish ok)
  | .data chunk trySend =>
    let (d,capsules) := drainCapsulesH2 trySend (s.capsules.push chunk)
    let (validation,events) := s.validation.confirm d.delivered
    some ({s with validation,capsules},.received d.inbound::events)
  | .bodyError => some (s.finish false)
  | .bodyEnd => some (s.finish true)

def exec : H2Action → Option (H2 × List Event)
  | .connect now ok =>
    if s.phase≠.connecting then none
    else if ok then
      let (validation,events) := s.validation.requested c now
      some ({s with validation,phase := .looping},events)
    else some (s.finish false)
  | .turn now arm =>
    if s.phase≠.looping then none
    else if s.validation.timedOut c now || s.pongDeadline.any (·≤now) then
      some (s.finish false)
    else s.select c now arm

/-- The tunnel with anything that may happen to it. -/
def machine : Machine H2 H2Action Event where
  start s := ∃ readyTx, s=⟨.new readyTx,.new,false,none,.connecting⟩
  allowed _ _ := True
  exec := exec c

end H2

end Http2

section Http3

def quarterStreamId (streamId : ℕ) : ℕ := streamId / 4

/-- The payload of a datagram of a stream, as long as its context is that of packets. -/
def decodeIpDatagram (datagram : Bytes) (expectStreamId : ℕ) : Except String (Option Bytes) := do
  let (qsid,b) ← oct (Octets.withSlice datagram).getVarint
  if qsid≠quarterStreamId expectStreamId then return none
  let (ctx,b) ← oct b.getVarint
  if ctx≠CONNECT_IP_CONTEXT_ID then return none
  let (payload,_) ← oct (b.getBytes b.cap)
  return some payload

/-- Take the datagrams of the connection until the queue is gone. -/
def drainDatagrams (trySend : ℕ → TrySend) (sid : ℕ) (d : Drained) : List Bytes → Drained
  | [] => d
  | datagram::rest =>
    match decodeIpDatagram datagram sid with
    | .ok (some packet) =>
      let found := {d with delivered := true,inbound := d.inbound++[packet]}
      if trySend d.inbound.length=.closed then found
      else drainDatagrams trySend sid found rest
    | .ok none => drainDatagrams trySend sid d rest
    | .error _ => drainDatagrams trySend sid d rest

/-- The tunnel over HTTP/3. -/
structure H3 where
  validation : Validation
  capsules : CapsuleParser
  h3Conn : Bool
  reqStream : Option ℕ
  currentEch : Bool
  establishedEver : Bool
  echRetried : Bool
  ctrlOpen : Bool
  outboundOpen : Bool
  phase : Phase

inductive H3Arm where
  | keepalive
  | probe
  | net
  | ctrl (message : Option Control)
  | outbound (packet : Option Bytes)
  | timeout

/-- What the stream of the request has: body, or an end that fails the tunnel. -/
inductive H3Poll where
  | data (chunks : List Bytes)
  | other
  | fails

/-- A turn of the loop, with all that the connection does in it. -/
structure Turn where
  now : ℕ
  arm : H3Arm
  established : Bool
  echAccepted : Bool
  /-- The stream of the request, if it can be sent. -/
  request : Option ℕ
  polled : List H3Poll
  datagrams : List Bytes
  trySend : ℕ → TrySend
  flushed : Bool
  draining : Bool
  closed : Bool
  echRejected : Bool
  /-- Whether there is a key to retry with, and whether the new connection succeeds. -/
  retry : Option Bool

def pollH3 (p : CapsuleParser) : List H3Poll → Option CapsuleParser
  | [] => some p
  | .data chunks::rest => pollH3 (drainCapsulesH3 (chunks.foldl .push p)).2 rest
  | .other::rest => pollH3 p rest
  | .fails::_ => none

namespace H3

variable (c : Settings) (s : H3) (x : Turn)

def finish (events : List Event) (ok : Bool) : H3 × List Event :=
  ({s with phase := .returned},events++[.returned ok])

def select : H3Arm → Option H3
  | .probe => if c.dataCheck && !s.validation.readyFired then some s else none
  | .ctrl message =>
    if s.ctrlOpen then some (if message=some .migrate then s else {s with ctrlOpen := false})
    else none
  | .outbound packet =>
    if s.outboundOpen then some (if packet.isSome then s else {s with outboundOpen := false})
    else none
  | .keepalive | .net | .timeout => some s

/-- The request is made once the handshake is done. -/
def establish : Option (H3 × List Event) :=
  if x.established && !s.h3Conn then
    if s.currentEch && !x.echAccepted then none
    else x.request.map fun sid =>
      let (validation,events) := s.validation.requested c x.now
      ({s with validation,establishedEver := true,h3Conn := true,reqStream := some sid},events)
  else some (s,[])

def drain : Drained :=
  match s.reqStream with
  | none => .none
  | some sid => drainDatagrams x.trySend sid .none x.datagrams

/-- The end of a turn: a handshake without its key is made again. -/
def settle (events : List Event) : H3 × List Event :=
  if !x.flushed then s.finish events false
  else if (x.draining || x.closed) && !s.establishedEver && !s.echRetried && s.currentEch &&
      x.echRejected && x.retry.isSome then
    if x.retry=some true then
      ({s with echRetried := true,h3Conn := false,reqStream := none,capsules := .new},events)
    else s.finish events false
  else if x.closed then s.finish events true
  else (s,events)

def exec : Option (H3 × List Event) :=
  if s.phase≠.looping then none
  else if s.validation.timedOut c x.now then some (s.finish [] false)
  else (s.select c x.arm).map fun s =>
    match s.establish c x with
    | none => s.finish [] false
    | some (s,started) =>
      match if s.h3Conn && s.reqStream.isSome then pollH3 s.capsules x.polled
        else some s.capsules with
      | none => s.finish started false
      | some capsules =>
        let (validation,events) := s.validation.confirm (s.drain x).delivered
        settle {s with validation,capsules} x (started++.received (s.drain x).inbound::events)

/-- The tunnel with anything that may happen to it. -/
def machine : Machine H3 Turn Event where
  start s := ∃ readyTx ech, s=⟨.new readyTx,.new,false,none,ech,false,false,true,true,.looping⟩
  allowed _ _ := True
  exec := exec c

/-- Every datagram that is taken for a packet looks like one. -/
def packetsOnly : Bool :=
  (s.reqStream.toList++x.request.toList).all fun sid => x.datagrams.all fun datagram =>
    match decodeIpDatagram datagram sid with
    | .ok (some packet) => looksLikeIpPacket packet
    | _ => true

end H3

end Http3

/-- A batch with a packet in it. -/
def valid : Event → Bool
  | .received packets => packets.any looksLikeIpPacket
  | _ => false

/-- The tunnel is ready after two batches with packets. -/
def Law (t : List Event) (e : Event) : Prop := e=.ready → 2≤t.countP valid

structure Sound (t : List Event) (v : Validation) : Prop where
  law : Guarded Law t
  once : t.count .ready≤1
  untold : v.readyTx=true → t.count .ready=0
  counted : v.readyFired=false → v.validateSuccesses≤t.countP valid

section Counting

variable {t : List Event} {v : Validation} {c : Settings} {d : Drained}

theorem Sound.new (readyTx : Bool) : Sound [] (.new readyTx) :=
  ⟨guarded_nil _,by decide,fun _ => rfl,fun _ => le_rfl⟩

/-- Events that do not tell that the tunnel is ready. -/
theorem Sound.quiet (h : Sound t v) {new : List Event} (hnew : .ready ∉ new) :
    Sound (t++new) v := by
  have hcount : (t++new).count .ready=t.count .ready := by
    rw [count_append,count_eq_zero.mpr hnew,Nat.add_zero]
  refine ⟨h.law.append ?_,hcount ▸ h.once,hcount ▸ h.untold,fun hv => ?_⟩
  · rintro e he _ rfl
    exact absurd he hnew
  · rw [countP_append]
    exact Nat.le_add_right_of_le (h.counted hv)

theorem Sound.requested (h : Sound t v) (hcheck : c.dataCheck=true) (now : ℕ) :
    (v.requested c now).2=[] ∧ Sound t (v.requested c now).1 := by
  rw [Validation.requested,if_pos hcheck]
  exact ⟨rfl,{h with}⟩

/-- A batch is counted only if it has a packet in it. -/
theorem Sound.received (h : Sound t v) {packets : List Bytes} {gotData : Bool}
    (hgot : gotData=true → packets.any looksLikeIpPacket=true) :
    Sound (t++.received packets::(v.confirm gotData).2) (v.confirm gotData).1 := by
  have hquiet := h.quiet (show .ready ∉ [Event.received packets] by simp)
  rw [append_cons]
  unfold Validation.confirm
  split
  · rename_i hdata
    obtain ⟨hdata,hunfired⟩ := Bool.and_eq_true_iff.mp hdata
    have hcounted := h.counted (by simpa using hunfired)
    have hmore : v.validateSuccesses+1≤(t++[Event.received packets]).countP valid := by
      rw [countP_append,countP_singleton,valid,if_pos (hgot hdata)]
      omega
    split
    · rename_i henough
      have htwo : 2≤(t++[Event.received packets]).countP valid := le_trans henough hmore
      unfold Validation.fire
      split
      · rename_i hwaits
        have hzero := hquiet.untold hwaits
        refine ⟨hquiet.law.concat fun _ => htwo,?_,nofun,nofun⟩
        rw [count_append,hzero]
        exact le_rfl
      · rw [append_nil]
        exact ⟨hquiet.law,hquiet.once,nofun,nofun⟩
    · rw [append_nil]
      exact ⟨hquiet.law,hquiet.once,hquiet.untold,fun _ => hmore⟩
  · rw [append_nil]
    exact hquiet

/-- What was counted as data has a packet in it. -/
def Backed (d : Drained) : Prop :=
  d.delivered=true → d.inbound.any looksLikeIpPacket=true

theorem Backed.found {packet : Bytes} (h : looksLikeIpPacket packet=true) :
    Backed {d with delivered := true,inbound := d.inbound++[packet]} := by
  intro _
  rw [any_append,any_cons,h,Bool.true_or,Bool.or_true]

theorem stripDatagramContext_looks {payload packet : Bytes}
    (h : stripDatagramContext payload=some packet) : looksLikeIpPacket packet=true := by
  unfold stripDatagramContext at h
  split at h
  · cases h
  dsimp only at h
  split at h
  · rename_i inner hinner
    cases h
    split at hinner
    · cases hinner
    · split_ifs at hinner with hpacket
      cases hinner
      exact hpacket.2
  · split_ifs at h with hpacket
    cases h
    exact hpacket

theorem drainCapsulesH2_backed (trySend : ℕ → TrySend) (p : CapsuleParser) :
    Backed (drainCapsulesH2 trySend p).1 := by
  have hhandle : ∀ d capsule, Backed d → Backed (handleH2 trySend d capsule).1 := by
    intro d capsule h
    unfold handleH2
    split
    · split
      · rename_i hstrip
        exact .found (stripDatagramContext_looks hstrip)
      · exact h
    · exact h
    · exact h
  have hloop : ∀ rounds d p, Backed d → Backed (drainLoop (handleH2 trySend) rounds d p).1 := by
    intro rounds
    induction rounds with
    | zero => exact fun d p h => h
    | succ rounds ih =>
      intro d p h
      rw [drainLoop]
      split
      · split
        · exact ih _ _ (hhandle d _ h)
        · exact hhandle d _ h
      · exact h
      · exact h
  exact hloop _ _ p fun hgot => by cases hgot

theorem drainDatagrams_backed (trySend : ℕ → TrySend) (sid : ℕ) {datagrams : List Bytes}
    (hlooks : ∀ datagram∈datagrams, ∀ packet, decodeIpDatagram datagram sid=.ok (some packet) →
      looksLikeIpPacket packet=true) (h : Backed d) :
    Backed (drainDatagrams trySend sid d datagrams) := by
  induction datagrams generalizing d with
  | nil => exact h
  | cons datagram rest ih =>
    have hrest := fun x hx => hlooks x (mem_cons_of_mem _ hx)
    rw [drainDatagrams]
    split
    · rename_i packet hdecode
      have hfound := Backed.found (d := d) (hlooks datagram mem_cons_self packet hdecode)
      split
      · exact hfound
      · exact ih hrest hfound
    · exact ih hrest h
    · exact ih hrest h

end Counting

section Runs

variable {c : Settings} {t : List Event}

/-- A branch other than that of the data leaves the validation alone. -/
theorem select_silent {s s' : H2} {now : ℕ} {arm : H2Arm} {new : List Event}
    (h : s.select c now arm=some (s',new)) :
    (s'.validation=s.validation ∧ .ready ∉ new) ∨ ∃ d, Backed d ∧
      s'.validation=(s.validation.confirm d.delivered).1 ∧
      new=.received d.inbound::(s.validation.confirm d.delivered).2 := by
  cases arm with
  | data chunk trySend =>
    cases h
    exact .inr ⟨_,drainCapsulesH2_backed _ _,rfl,rfl⟩
  | ctrl message =>
    left
    by_cases hmigrate : message=some .migrate
    · subst hmigrate
      cases h
      exact ⟨rfl,by simp⟩
    · rw [H2.select] at h
      · cases h
        exact ⟨rfl,by simp⟩
      · exact hmigrate
  | pongTimer =>
    obtain ⟨_,_,heq⟩ := map_eq_some_iff.mp h
    cases heq
    exact .inl ⟨rfl,by simp⟩
  | _ =>
    left
    grind [H2.select,H2.finish]

theorem h2_sound (hcheck : c.dataCheck=true) {s : H2} (h : (H2.machine c).Run always t s) :
    Sound t s.validation := by
  refine h.invariant (fun t s => Sound t s.validation) ?_ ?_
  · rintro _ ⟨readyTx,rfl⟩
    exact .new readyTx
  intro t s a s' new h _ _ hexec
  cases a with
  | connect now ok =>
    simp only [H2.machine,H2.exec] at hexec
    split at hexec
    · cases hexec
    split at hexec
    · cases hexec
      have hrequested := h.requested hcheck now
      rw [hrequested.1,append_nil]
      exact hrequested.2
    · cases hexec
      exact h.quiet (by simp)
  | turn now arm =>
    simp only [H2.machine,H2.exec] at hexec
    split at hexec
    · cases hexec
    split at hexec
    · cases hexec
      exact h.quiet (by simp)
    · rcases select_silent hexec with ⟨hsame,hnew⟩ | ⟨d,hbacked,hconfirm,rfl⟩
      · rw [hsame]
        exact h.quiet hnew
      · rw [hconfirm]
        exact h.received hbacked

/-- The end of a turn does not touch the validation. -/
theorem settle_silent (s : H3) (x : Turn) (events : List Event) :
    (s.settle x events).1.validation=s.validation ∧
      ∃ new, (s.settle x events).2=events++new ∧ .ready ∉ new := by
  unfold H3.settle H3.finish
  split
  · exact ⟨rfl,_,rfl,by simp⟩
  split
  · split
    · exact ⟨rfl,[],(append_nil _).symm,by simp⟩
    · exact ⟨rfl,_,rfl,by simp⟩
  split
  · exact ⟨rfl,_,rfl,by simp⟩
  · exact ⟨rfl,[],(append_nil _).symm,by simp⟩

/-- What looks like packets on every stream of the request does so in the drain. -/
theorem drain_backed {s s₁ : H3} {x : Turn} (h : s.packetsOnly x=true) (hstreams : ∀ sid,
    s₁.reqStream=some sid → s.reqStream=some sid ∨ x.request=some sid) : Backed (s₁.drain x) := by
  unfold H3.drain
  split
  · exact nofun
  · rename_i sid hsid
    refine drainDatagrams_backed _ _ (fun datagram hmem packet hdecode => ?_) nofun
    have hstream : sid∈s.reqStream.toList++x.request.toList := by
      rw [mem_append,mem_toList,mem_toList]
      exact hstreams sid hsid
    have hall := all_eq_true.mp (all_eq_true.mp h sid hstream) datagram hmem
    rw [hdecode] at hall
    exact hall

theorem select_same {s s₁ : H3} {arm : H3Arm} (h : s.select c arm=some s₁) :
    s₁.validation=s.validation ∧ s₁.reqStream=s.reqStream := by
  cases arm <;> grind [H3.select]

/-- The request leaves the count as it is. -/
theorem establish_sound (hcheck : c.dataCheck=true) {s s₁ : H3} {x : Turn}
    {started : List Event} (h : Sound t s.validation) (he : s.establish c x=some (s₁,started)) :
    started=[] ∧ Sound t s₁.validation ∧
      ∀ sid, s₁.reqStream=some sid → s.reqStream=some sid ∨ x.request=some sid := by
  unfold H3.establish at he
  split at he
  · split_ifs at he
    obtain ⟨sid,hsid,heq⟩ := map_eq_some_iff.mp he
    cases heq
    have hrequested := h.requested hcheck x.now
    refine ⟨hrequested.1,hrequested.2,?_⟩
    rintro _ ⟨⟩
    exact .inr hsid
  · cases he
    exact ⟨rfl,h,fun _ => .inl⟩

theorem h3_sound (hcheck : c.dataCheck=true) {s : H3}
    (h : (H3.machine c).Run (fun _ s x => s.packetsOnly x=true) t s) : Sound t s.validation := by
  refine h.invariant (fun t s => Sound t s.validation) ?_ ?_
  · rintro _ ⟨readyTx,ech,rfl⟩
    exact .new readyTx
  intro t s x s' new h _ hpackets hexec
  simp only [H3.machine,H3.exec] at hexec
  split_ifs at hexec
  · cases hexec
    exact h.quiet (by simp)
  obtain ⟨s₁,hselect,heq⟩ := map_eq_some_iff.mp hexec
  obtain ⟨hvalidation,hstream⟩ := select_same hselect
  rw [←hvalidation] at h
  split at heq
  · cases heq
    exact h.quiet (by simp)
  rename_i s₂ started hestablish
  obtain ⟨rfl,hsound,hsids⟩ := establish_sound hcheck h hestablish
  split at heq
  · cases heq
    exact hsound.quiet (by simp)
  · rename_i capsules _
    rw [hstream] at hsids
    have hreceived := hsound.received (drain_backed hpackets hsids)
    obtain ⟨hsame,more,hmore,hquiet⟩ := settle_silent
      {s₂ with validation := (s₂.validation.confirm (s₂.drain x).delivered).1,capsules} x
      ([]++.received (s₂.drain x).inbound::(s₂.validation.confirm (s₂.drain x).delivered).2)
    rw [heq] at hsame hmore
    dsimp only at hsame hmore
    rw [hsame,hmore,←append_assoc]
    exact hreceived.quiet hquiet

/-- With the data check, readiness is told at most once and after two batches with
packets; over HTTP/3 as long as every datagram that is taken for a packet looks
like one. -/
theorem ready_validated (c : Settings) (hcheck : c.dataCheck=true) :
    (∀ t s, (H2.machine c).Run always t s → t.count .ready≤1 ∧ Guarded Law t) ∧
      ∀ t s, (H3.machine c).Run (fun _ s x => s.packetsOnly x=true) t s →
        t.count .ready≤1 ∧ Guarded Law t := by
  constructor
  · intro t s hrun
    have hsound := h2_sound hcheck hrun
    exact ⟨hsound.once,hsound.law⟩
  · intro t s hrun
    have hsound := h3_sound hcheck hrun
    exact ⟨hsound.once,hsound.law⟩

def checked : Settings := ⟨true,10,10⟩

/-- A turn on an established connection with one datagram. -/
def turnWith (datagram : Bytes) : Turn :=
  ⟨0,.net,true,false,some 0,[],[datagram],fun _ => .ok,true,false,false,false,none⟩

/-- Two packets come back over HTTP/3. -/
theorem ready_validated_packets : ∃ t s,
    (H3.machine checked).Run (fun _ s x => s.packetsOnly x=true) t s ∧ .ready∈t ∧
      Guarded Law t :=
  Machine.exists_run_with H3.packetsOnly (fun _ _ _ h => ⟨trivial,h⟩) ⟨true,false,rfl⟩
    (List.replicate 2 (turnWith (0::0::0x45::List.replicate 19 0))) (by decide +kernel)
    fun t s h => ((ready_validated checked rfl).2 t s h).2

/-- Two datagrams without any payload come over HTTP/3. -/
theorem ready_without_packets : ∃ t s, (H3.machine checked).Run always t s ∧ .ready∈t ∧
    t.countP valid=0 :=
  Machine.exists_run (fun _ _ => true) (fun _ _ _ _ => ⟨trivial,trivial⟩) ⟨true,false,rfl⟩
    (List.replicate 2 (turnWith [0,0])) (by decide +kernel)

end Runs

end MsnGuard.TunnelReadiness
