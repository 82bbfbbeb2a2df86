import MsnGuard.IpAddresses
import MsnGuard.MasqueCapsules

/-!
# Capsules between pushes

Pushes and readings of a capsule parser come in any order. The loops that drain the parser after
a push end at a capsule that cannot be decoded, whether or not complete capsules stand behind
it.
-/

namespace MsnGuard.CapsuleStreams

open OctetsVarint MasqueCapsules IpAddresses List

section Operations

/-- What is done with a parser. -/
inductive Op where
  | push (data : Bytes)
  | next

/-- The answers of the parser, and its state behind them. -/
def perform : CapsuleParser → List Op → List (Except String (Option Capsule)) × CapsuleParser
  | p,[] => ([],p)
  | p,.push data::ops => perform (p.push data) ops
  | p,.next::ops => (p.next.1::(perform p.next.2 ops).1,(perform p.next.2 ops).2)

/-- Everything that is pushed. -/
def pushed : List Op → Bytes
  | [] => []
  | .push data::ops => data++pushed ops
  | .next::ops => pushed ops

/-- There is room for what is pushed. -/
def fits (p : CapsuleParser) : Op → Prop
  | .push data => p.buf.length+data.length≤MAX_CAPSULE_BUF
  | .next => True

instance (p : CapsuleParser) : (op : Op) → Decidable (fits p op)
  | .push _ => inferInstanceAs (Decidable (_≤_))
  | .next => inferInstanceAs (Decidable True)

/-- The capsule of an answer, or why it could not be decoded. -/
def answered : Except String (Option Capsule) → Option (Except String Capsule)
  | .ok none => none
  | .ok (some c) => some (.ok c)
  | .error e => some (.error e)

theorem answered_map (r : Except String Capsule) : answered (r.map some)=some r := by
  cases r <;> rfl

theorem answers_of_stream {p : CapsuleParser} {frames : List Frame} {ops : List Op}
    (hstream : p.buf++pushed ops <+: frames.flatMap Frame.bytes)
    (hfits : ∀ before op after, ops=before++op::after → fits (perform p before).2 op) :
    ∃ n, (perform p ops).1.filterMap answered=(frames.take n).map Frame.capsule := by
  induction ops generalizing p frames with
  | nil => exact ⟨0,rfl⟩
  | cons op ops ih =>
    have hfirst := hfits [] op ops rfl
    cases op with
    | push data =>
      have hpush : p.push data=⟨p.buf++data⟩ := if_neg (not_lt.mpr hfirst)
      rw [perform,hpush]
      refine ih ?_ fun before op after h => ?_
      · rw [append_assoc]
        exact hstream
      · have hlater := hfits (.push data::before) op after (congrArg _ h)
        rw [perform,hpush] at hlater
        exact hlater
    | next =>
      have hlater : ∀ before op after, ops=before++op::after →
          fits (perform p.next.2 before).2 op :=
        fun before op after h => hfits (.next::before) op after (congrArg _ h)
      rw [perform,filterMap_cons]
      by_cases hbegins : Frame.Begins p.buf
      · obtain ⟨f,rest,hbuf⟩ := hbegins
        have hnext : p.next=(f.capsule.map some,⟨rest⟩) := by
          rw [←f.next_bytes rest,←hbuf]
        obtain ⟨tail,htail⟩ := hstream
        rw [hbuf] at htail
        cases frames with
        | nil =>
          have hnil := congrArg length htail
          have hpos := f.bytes_pos
          simp only [length_append,flatMap_nil,length_nil] at hnil
          omega
        | cons g frames =>
          simp only [flatMap_cons,append_assoc] at htail
          obtain ⟨hcapsule,hrest⟩ := Frame.of_append_eq htail
          rw [hnext] at hlater ⊢
          have hmore : rest++pushed ops <+: frames.flatMap Frame.bytes :=
            ⟨tail,by rw [←hrest,append_assoc]; rfl⟩
          obtain ⟨n,hn⟩ := ih hmore hlater
          rw [answered_map]
          exact ⟨n+1,by rw [hn,hcapsule]; rfl⟩
      · have hnext : p.next=(.ok none,p) := Frame.next_incomplete hbegins
        rw [hnext] at hlater ⊢
        exact ih hstream hlater

/-- A packet of one byte as a capsule. -/
def smallFrame (x : UInt8) : Frame :=
  ⟨CAPSULE_DATAGRAM,1,[x],1,datagram_fits,(by decide : VarintFits 1 1)⟩

/-- The two pieces of a capsule: a large one and the end of the value, which looks
like a capsule of its own. -/
def pieces (filler : Bytes) : List Op :=
  [.push (varintBytes CAPSULE_DATAGRAM 1++(varintBytes 262147 4++filler)),.push [0,1,9],.next]

theorem perform_pieces {filler : Bytes} (h : filler.length=MAX_CAPSULE_BUF) :
    (perform .new (pieces filler)).1=[.ok (some (.datagram [9]))] := by
  have hlarge : MAX_CAPSULE_BUF<CapsuleParser.new.buf.length+
      (varintBytes CAPSULE_DATAGRAM 1++(varintBytes 262147 4++filler)).length := by
    simp only [length_append,varintBytes_length,h]
    omega
  rw [pieces,perform,CapsuleParser.push,if_pos hlarge]
  decide

end Operations

section Draining

/-- How a bounded queue takes an item. -/
inductive TrySend where
  | ok
  | full
  | closed
  deriving DecidableEq

/-- The address in an assignment. -/
def bytesToIp (version : UInt8) (bytes : Bytes) : Option IpAddr :=
  if version=4 ∧ bytes.length=4 then some (.v4 (BitVec.ofNat 32 (beValue bytes)))
  else if version=6 ∧ bytes.length=16 then some (.v6 (BitVec.ofNat 128 (beValue bytes)))
  else none

/-- What a drain has done. -/
structure Drained where
  /-- A packet has been found. -/
  delivered : Bool
  /-- Packets offered to the queue of the device. -/
  inbound : List Bytes
  /-- Assigned addresses and their prefixes, offered to whoever waits for them. -/
  addrs : List (IpAddr × UInt8)
  deriving DecidableEq

/-- Before the first capsule. -/
def Drained.none : Drained := ⟨false,[],[]⟩

/-- Report the addresses of an assignment. -/
def Drained.assign (d : Drained) (addrs : List AssignedAddress) : Drained :=
  {d with addrs := d.addrs++addrs.filterMap fun a =>
    (bytesToIp a.ipVersion a.address).map (·,a.prefixLen)}

/-- What the carrier over HTTP/2 does with a capsule, and whether it goes on. The
queue answers the packet with the given number. -/
def handleH2 (trySend : ℕ → TrySend) (d : Drained) : Capsule → Drained × Bool
  | .datagram payload =>
    match stripDatagramContext payload with
    | some pkt =>
      ({d with delivered := true,inbound := d.inbound++[pkt]},trySend d.inbound.length≠.closed)
    | none => (d,true)
  | .addressAssign addrs => (d.assign addrs,true)
  | _ => (d,true)

/-- What the carrier over HTTP/3 does with a capsule. -/
def handleH3 (d : Drained) : Capsule → Drained × Bool
  | .addressAssign addrs => (d.assign addrs,true)
  | _ => (d,true)

/-- Take capsules until none is complete or one cannot be decoded. -/
def drainLoop (handle : Drained → Capsule → Drained × Bool) :
    ℕ → Drained → CapsuleParser → Drained × CapsuleParser
  | 0,d,p => (d,p)
  | rounds+1,d,p =>
    match p.next with
    | (.ok (some c),p) =>
      if (handle d c).2 then drainLoop handle rounds (handle d c).1 p else ((handle d c).1,p)
    | (.ok none,p) => (d,p)
    | (.error _,p) => (d,p)

/-- The drain of the carrier over HTTP/2. -/
def drainCapsulesH2 (trySend : ℕ → TrySend) (p : CapsuleParser) : Drained × CapsuleParser :=
  drainLoop (handleH2 trySend) p.buf.length .none p

/-- The drain of the carrier over HTTP/3. -/
def drainCapsulesH3 (p : CapsuleParser) : Drained × CapsuleParser :=
  drainLoop handleH3 p.buf.length .none p

/-- A capsule that cannot be decoded stands before a complete one, and all
capsules before it can be decoded. -/
def Hidden (buf : Bytes) : Prop :=
  ∃ (before : List Frame) (f g : Frame) (rest : Bytes),
    (∀ e∈before, ∃ c, e.capsule=.ok c) ∧ (∃ e, f.capsule=.error e) ∧
      buf=before.flatMap Frame.bytes++(f.bytes++(g.bytes++rest))

variable {buf rest : Bytes} {f : Frame} {handle : Drained → Capsule → Drained × Bool}

theorem Hidden.begins (h : Hidden buf) : Frame.Begins buf := by
  obtain ⟨before,f,g,rest,-,-,rfl⟩ := h
  cases before with
  | nil => exact ⟨f,_,rfl⟩
  | cons e before => exact ⟨e,_,by rw [flatMap_cons,append_assoc]⟩

/-- Behind a capsule that cannot be decoded everything complete is hidden. -/
theorem hidden_error {e : String} (hf : f.capsule=.error e) :
    Hidden (f.bytes++rest) ↔ Frame.Begins rest := by
  constructor
  · rintro ⟨before,f',g,tail,hbefore,-,heq⟩
    cases before with
    | nil => exact ⟨g,tail,(Frame.of_append_eq heq).2⟩
    | cons e' before =>
      obtain ⟨c,hc⟩ := hbefore e' mem_cons_self
      rw [flatMap_cons,append_assoc] at heq
      rw [(Frame.of_append_eq heq).1,hc] at hf
      cases hf
  · rintro ⟨g,tail,rfl⟩
    exact ⟨[],f,g,tail,nofun,⟨e,hf⟩,rfl⟩

/-- A capsule that can be decoded hides nothing. -/
theorem hidden_ok {c : Capsule} (hf : f.capsule=.ok c) : Hidden (f.bytes++rest) ↔ Hidden rest := by
  constructor
  · rintro ⟨before,f',g,tail,hbefore,⟨e,he⟩,heq⟩
    cases before with
    | nil =>
      rw [(Frame.of_append_eq heq).1,he] at hf
      cases hf
    | cons e' before =>
      rw [flatMap_cons,append_assoc] at heq
      exact ⟨before,f',g,tail,fun e he => hbefore e (mem_cons_of_mem _ he),⟨e,he⟩,
        (Frame.of_append_eq heq).2⟩
  · rintro ⟨before,f',g,tail,hbefore,he,rfl⟩
    refine ⟨f::before,f',g,tail,?_,he,by rw [flatMap_cons,append_assoc]⟩
    exact forall_mem_cons.mpr ⟨⟨c,hf⟩,hbefore⟩

/-- A drain that is not cut short leaves a complete capsule exactly if one was
hidden. -/
theorem drainLoop_begins (hgo : ∀ d c, (handle d c).2=true) {rounds : ℕ}
    (hrounds : buf.length≤rounds) (d : Drained) :
    Frame.Begins (drainLoop handle rounds d ⟨buf⟩).2.buf ↔ Hidden buf := by
  induction rounds generalizing buf d with
  | zero =>
    have hnil : buf=[] := eq_nil_of_length_eq_zero (by omega)
    refine ⟨?_,Hidden.begins⟩
    rintro ⟨f,rest,heq⟩
    have hpos := f.bytes_pos
    rw [(append_eq_nil_iff.mp (heq.symm.trans hnil)).1] at hpos
    cases hpos
  | succ rounds ih =>
    rw [drainLoop]
    by_cases hbegins : Frame.Begins buf
    · obtain ⟨f,rest,rfl⟩ := hbegins
      rw [f.next_bytes]
      cases hf : f.capsule with
      | error e => exact (hidden_error hf).symm
      | ok c =>
        have hpos := f.bytes_pos
        rw [length_append] at hrounds
        rw [hidden_ok hf,←ih (by omega) (handle d c).1]
        simp only [Except.map,hgo d c,if_true]
    · rw [Frame.next_incomplete hbegins]
      exact ⟨fun h => absurd h hbegins,fun h => absurd h.begins hbegins⟩

end Draining

end MsnGuard.CapsuleStreams
