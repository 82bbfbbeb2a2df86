import MsnGuard.SniRanges
import MsnGuard.ExitLocation
import MsnGuard.TransitionRuns

/-!
# Writes in small pieces

The stream of a handshake hands its first writes on in small pieces, with a pause after each,
until something is read. Random lengths and pauses and the answers of the inner stream are
choices of the surroundings.
-/

namespace MsnGuard.FragmentedWrites

open RustText ClientHellos TransitionRuns List
open ExitLocation (parseU64)

section Configuration

/-- The lengths of pieces and pauses. -/
structure FragmentConfig where
  enabled : Bool
  sizeMin : ℕ
  sizeMax : ℕ
  delayMinMs : ℕ
  delayMaxMs : ℕ
  sniSplit : Bool

/-- Does a variable say yes? -/
def isTruthy (table : CaseTable) (v : Text) : Bool :=
  ["1".toList,"true".toList,"yes".toList,"on".toList].contains (toLowercase table (trim v))

/-- Two bounds in order, or one number for both. -/
def parseRange (spec : Text) (default : ℕ × ℕ) : ℕ × ℕ :=
  let spec := trim spec
  if spec=[] then default
  else match splitOnce '-' spec with
    | some (a,b) =>
      let lo := (parseU64 (trim a)).getD default.1
      let hi := (parseU64 (trim b)).getD default.2
      if hi<lo then (hi,lo) else (lo,hi)
    | none =>
      let v := (parseU64 spec).getD default.1
      (v,v)

namespace FragmentConfig

/-- The configuration that the variables of the process describe. -/
def fromEnv (table : CaseTable) (var : Text → Option Text) : FragmentConfig :=
  let enabled := ((var "AETHER_MASQUE_H2_FRAGMENT".toList).map (isTruthy table)).getD false
  let size := parseRange ((var "AETHER_MASQUE_H2_FRAGMENT_SIZE".toList).getD []) (8,16)
  let delay := parseRange ((var "AETHER_MASQUE_H2_FRAGMENT_DELAY".toList).getD []) (2,10)
  let sizeMin := max size.1 1
  {enabled := enabled
   sizeMin := sizeMin
   sizeMax := max size.2 sizeMin
   delayMinMs := delay.1
   delayMaxMs := max delay.2 delay.1
   sniSplit := ((var "AETHER_MASQUE_H2_FRAGMENT_SNI".toList).map (isTruthy table)).getD false}

/-- A random number between two bounds. -/
def randomRange (r lo hi : ℕ) : ℕ := lo+r%(hi-lo+1)

/-- The length of the next piece. -/
def pickChunkLen (cfg : FragmentConfig) (r remaining : ℕ) : ℕ :=
  let hi := min (max cfg.sizeMax 1) remaining
  let lo := min (max cfg.sizeMin 1) hi
  if hi≤lo then hi else randomRange r lo hi

/-- The length of the next pause. -/
def pickDelay (cfg : FragmentConfig) (r : ℕ) : ℕ :=
  if cfg.delayMaxMs=0 then 0
  else if cfg.delayMaxMs≤cfg.delayMinMs then cfg.delayMinMs
  else randomRange r cfg.delayMinMs cfg.delayMaxMs

theorem randomRange_bounds (r : ℕ) {lo hi : ℕ} (h : lo≤hi) :
    lo≤randomRange r lo hi ∧ randomRange r lo hi≤hi := by
  have hmod : r%(hi-lo+1)<hi-lo+1 := Nat.mod_lt r (Nat.succ_pos _)
  unfold randomRange
  omega

/-- Something is left to write, and the next piece is a part of it. -/
theorem pickChunkLen_bounds (cfg : FragmentConfig) (r : ℕ) {remaining : ℕ}
    (h : 0<remaining) :
    0<cfg.pickChunkLen r remaining ∧ cfg.pickChunkLen r remaining≤remaining := by
  unfold pickChunkLen
  dsimp only
  split
  · omega
  · rename_i hlo
    have hbounds := randomRange_bounds r (Nat.le_of_not_le hlo)
    omega

/-- With variables of any kind, pieces of long buffers and pauses keep to bounds
that are in order. -/
theorem fromEnv_bounds (table : CaseTable) (var : Text → Option Text) (r remaining : ℕ) :
    let cfg := fromEnv table var
    1≤cfg.sizeMin ∧ (cfg.sizeMax≤remaining → cfg.sizeMin≤cfg.pickChunkLen r remaining ∧
        cfg.pickChunkLen r remaining≤cfg.sizeMax) ∧
      cfg.delayMinMs≤cfg.pickDelay r ∧ cfg.pickDelay r≤cfg.delayMaxMs := by
  intro cfg
  have hpos : 1≤cfg.sizeMin := le_max_right _ _
  have hsize : cfg.sizeMin≤cfg.sizeMax := le_max_right _ _
  have hdelay : cfg.delayMinMs≤cfg.delayMaxMs := le_max_right _ _
  refine ⟨hpos,fun hlong => ?_,?_⟩
  · have hhi : min (max cfg.sizeMax 1) remaining=cfg.sizeMax := by omega
    have hlo : min (max cfg.sizeMin 1) cfg.sizeMax=cfg.sizeMin := by omega
    unfold pickChunkLen
    dsimp only
    rw [hhi,hlo]
    split
    · omega
    · exact randomRange_bounds r hsize
  · unfold pickDelay
    split
    · omega
    split
    · omega
    · exact randomRange_bounds r hdelay

end FragmentConfig

end Configuration

section Stream

/-- The answer of a stream: not yet, a failure, or a result. -/
inductive Poll (α : Type) where
  | pending
  | failed
  | ready (value : α)
  deriving DecidableEq

/-- The bytes that an answer reports as written. -/
def Poll.written (buf : Bytes) : Poll ℕ → Bytes
  | .ready n => buf.take n
  | .pending => []
  | .failed => []

/-- A stream that cuts its first writes. -/
structure FragmentingStream where
  cfg : FragmentConfig
  fragmenting : Bool
  firstWrite : Bool
  /-- The pause before the next piece, in milliseconds. -/
  pendingDelay : Option ℕ

/-- What the surroundings choose during a write. -/
structure Choice where
  /-- Is the pause over? -/
  awake : Bool
  /-- Random numbers for the length of the piece and of the pause. -/
  length : ℕ
  delay : ℕ
  /-- The answer of the inner stream, if it is asked. -/
  answer : Poll ℕ
  deriving DecidableEq

namespace FragmentingStream

/-- A stream before its first write. -/
def new (cfg : FragmentConfig) : FragmentingStream := ⟨cfg,cfg.enabled,true,none⟩

/-- Where a piece ends that is to end inside of the server name. -/
def targeted (this : FragmentingStream) (buf : Bytes) : Option ℕ :=
  if this.firstWrite && this.cfg.sniSplit then
    (sniHostRange buf).map fun (start,last) => start+(last-start)/2
  else none

/-- The length of the next piece. -/
def chunkLen (this : FragmentingStream) (buf : Bytes) (r : ℕ) : ℕ :=
  match this.targeted buf with
  | some split => if 0<split ∧ split<buf.length then split
    else this.cfg.pickChunkLen r buf.length
  | none => this.cfg.pickChunkLen r buf.length

/-- After a piece of which something was taken comes a pause. -/
def afterWrite (this : FragmentingStream) (r : ℕ) : Poll ℕ → FragmentingStream
  | .ready n =>
    if 0<n then
      let delay := this.cfg.pickDelay r
      {this with firstWrite := false
                 pendingDelay := if delay≠0 then some delay else this.pendingDelay}
    else this
  | .pending => this
  | .failed => this

/-- A write: the stream after it, what the inner stream was offered, and the answer. -/
def pollWrite (this : FragmentingStream) (buf : Bytes) (c : Choice) :
    FragmentingStream × Option Bytes × Poll ℕ :=
  if buf=[] ∨ this.fragmenting=false then (this,some buf,c.answer)
  else if this.pendingDelay.isSome ∧ c.awake=false then (this,none,.pending)
  else
    let this := {this with pendingDelay := none}
    (this.afterWrite c.delay c.answer,some (buf.take (this.chunkLen buf c.length)),c.answer)

/-- A read ends the cutting. -/
def pollRead (this : FragmentingStream) : FragmentingStream := {this with fragmenting := false}

end FragmentingStream

/-- The stream, and what the inner stream has taken. -/
structure State where
  stream : FragmentingStream
  inner : Bytes

/-- Calls of the stream. -/
inductive Action where
  | pollWrite (buf : Bytes) (c : Choice)
  | pollRead
  | pollFlush
  | pollShutdown
  deriving DecidableEq

/-- What an observer sees. -/
inductive Event where
  /-- A write of a buffer: the piece that was offered, unless there was a pause,
  and the answer. -/
  | wrote (buf : Bytes) (offered : Option Bytes) (answer : Poll ℕ)
  | read
  | flushed
  | shut
  deriving DecidableEq

/-- No stream takes more than it was offered. -/
def Fits (offered : Option Bytes) (answer : Poll ℕ) : Bool :=
  match offered,answer with
  | some chunk,.ready n => n≤chunk.length
  | _,_ => true

/-- The surroundings keep to the contract of writers. -/
def allowed (s : State) : Action → Bool
  | .pollWrite buf c =>
    let (_,offered,answer) := s.stream.pollWrite buf c
    Fits offered answer
  | _ => true

/-- What a call does. The inner stream keeps what it reports of the piece it was
offered. -/
def exec (s : State) : Action → Option (State × List Event)
  | .pollWrite buf c =>
    let (stream,offered,answer) := s.stream.pollWrite buf c
    some (⟨stream,s.inner++(offered.elim [] answer.written)⟩,
      [.wrote buf offered answer])
  | .pollRead => some ({s with stream := s.stream.pollRead},[.read])
  | .pollFlush => some (s,[.flushed])
  | .pollShutdown => some (s,[.shut])

/-- Every stream with every configuration. -/
def machine : Machine State Action Event where
  start s := ∃ cfg, s=⟨.new cfg,[]⟩
  allowed s a := allowed s a=true
  exec := exec

end Stream

section Writes

/-- What an event reports as written. -/
def Event.reported : Event → Bytes
  | .wrote buf _ answer => answer.written buf
  | .read => []
  | .flushed => []
  | .shut => []

/-- A piece is a beginning of the buffer, and something unless the buffer is
empty; after a read it is the whole buffer, without a pause. -/
def Rightly (t : List Event) : Event → Prop
  | .wrote buf offered _ =>
    (∀ chunk, offered=some chunk →
      chunk <+: buf ∧ (buf≠[] → 1≤chunk.length) ∧ chunk.length≤buf.length) ∧
    (.read∈t → offered=some buf)
  | _ => True

variable {s : State} {t : List Event}

/-- The next piece is not empty and no longer than the buffer. -/
theorem chunkLen_bounds (this : FragmentingStream) {buf : Bytes} (hbuf : buf≠[]) (r : ℕ) :
    0<this.chunkLen buf r ∧ this.chunkLen buf r≤buf.length := by
  have hpick := this.cfg.pickChunkLen_bounds r (length_pos_iff.mpr hbuf)
  unfold FragmentingStream.chunkLen
  split
  · split
    · omega
    · exact hpick
  · exact hpick

/-- What is offered, and what an answer reports of it. -/
theorem pollWrite_offered (this : FragmentingStream) (buf : Bytes) (c : Choice) :
    ∃ stream offered answer, this.pollWrite buf c=(stream,offered,answer) ∧
      (stream.fragmenting=this.fragmenting) ∧
      (this.fragmenting=false → offered=some buf) ∧
      (offered=none → answer=.pending) ∧
      ∀ chunk, offered=some chunk →
        chunk <+: buf ∧ (buf≠[] → 1≤chunk.length) ∧ chunk.length≤buf.length := by
  unfold FragmentingStream.pollWrite
  split
  · refine ⟨_,_,_,rfl,rfl,fun _ => rfl,nofun,fun chunk hchunk => ?_⟩
    cases hchunk
    exact ⟨prefix_rfl,length_pos_iff.mpr,le_rfl⟩
  rename_i hcut
  push Not at hcut
  obtain ⟨hbuf,hfragmenting⟩ := hcut
  split
  · exact ⟨_,_,_,rfl,rfl,fun hoff => absurd hoff hfragmenting,fun _ => rfl,nofun⟩
  · refine ⟨_,_,_,rfl,?_,fun hoff => absurd hoff hfragmenting,nofun,fun chunk hchunk => ?_⟩
    · cases c.answer with
      | pending | failed => rfl
      | ready n =>
        simp only [FragmentingStream.afterWrite]
        split <;> rfl
    · have hbounds := chunkLen_bounds {this with pendingDelay := none} hbuf c.length
      cases hchunk
      rw [length_take]
      exact ⟨List.take_prefix _ _,fun _ => by omega,by omega⟩

/-- What the inner stream keeps of a piece is what is reported of the buffer. -/
theorem written_eq {buf chunk : Bytes} {answer : Poll ℕ} (hchunk : chunk <+: buf)
    (hfits : Fits (some chunk) answer=true) : answer.written chunk=answer.written buf := by
  cases answer with
  | pending | failed => rfl
  | ready n =>
    obtain ⟨rest,rfl⟩ := hchunk
    have hn : n≤chunk.length := of_decide_eq_true hfits
    exact (take_append_of_le_length hn).symm

/-- What is kept along a run. -/
structure Faithful (t : List Event) (s : State) : Prop where
  inner : s.inner=t.flatMap Event.reported
  read : .read∈t → s.stream.fragmenting=false
  rightly : Guarded Rightly t

/-- A call that writes nothing. -/
theorem Faithful.other (h : Faithful t s) {e : Event} {stream : FragmentingStream}
    (he : e.reported=[]) (hright : Rightly t e)
    (hstream : .read∈t++[e] → stream.fragmenting=false) :
    Faithful (t++[e]) {s with stream := stream} where
  inner := by
    rw [flatMap_append,flatMap_singleton,he,append_nil]
    exact h.inner
  read := hstream
  rightly := h.rightly.concat hright

/-- A write. -/
theorem Faithful.pollWrite (h : Faithful t s) {buf : Bytes} {c : Choice}
    (ha : allowed s (.pollWrite buf c)=true) {s' : State} {new : List Event}
    (hstep : exec s (.pollWrite buf c)=some (s',new)) : Faithful (t++new) s' := by
  obtain ⟨stream,offered,answer,hpoll,hsame,hwhole,hwait,hchunk⟩ :=
    pollWrite_offered s.stream buf c
  rw [allowed,hpoll] at ha
  rw [exec,hpoll] at hstep
  cases hstep
  have hwritten : (offered.elim [] answer.written)=answer.written buf := by
    cases offered with
    | none =>
      rw [hwait rfl]
      rfl
    | some chunk => exact written_eq (hchunk chunk rfl).1 ha
  refine ⟨?_,fun hread => ?_,h.rightly.concat ⟨hchunk,fun hread => hwhole (h.read hread)⟩⟩
  · rw [flatMap_append,flatMap_singleton,hwritten,h.inner]
    rfl
  · rw [mem_append,mem_singleton] at hread
    rcases hread with hold | hnew
    · exact hsame.trans (h.read hold)
    · cases hnew

theorem exec_faithful (h : Faithful t s) {a : Action} (ha : allowed s a=true) {s' : State}
    {new : List Event} (hstep : exec s a=some (s',new)) : Faithful (t++new) s' := by
  have hread : ∀ {e : Event}, e≠.read → .read∈t++[e] → s.stream.fragmenting=false := by
    intro e hne hmem
    rw [mem_append,mem_singleton] at hmem
    rcases hmem with hold | hnew
    · exact h.read hold
    · exact absurd hnew.symm hne
  cases a with
  | pollWrite buf c => exact h.pollWrite ha hstep
  | pollRead =>
    cases hstep
    exact h.other rfl trivial fun _ => rfl
  | pollFlush | pollShutdown =>
    cases hstep
    exact h.other rfl trivial (hread nofun)

theorem faithful_of_run (h : machine.Run always t s) : Faithful t s := by
  refine h.invariant Faithful ?_ ?_
  · rintro s ⟨cfg,rfl⟩
    exact ⟨rfl,nofun,guarded_nil _⟩
  · intro t s a s' new hfaithful ha _ hstep
    exact exec_faithful hfaithful ha hstep

/-- In every run the inner stream has taken what was reported as written, in
order; every piece of a buffer that is not empty is a part of it that is not
empty, and after a read every buffer is offered at once and as a whole. -/
theorem writes_faithful (h : machine.Run always t s) :
    s.inner=t.flatMap Event.reported ∧
      ∀ front buf offered answer back, t=front++.wrote buf offered answer::back →
        (∀ chunk, offered=some chunk →
          chunk <+: buf ∧ (buf≠[] → 1≤chunk.length) ∧ chunk.length≤buf.length) ∧
        (.read∈front → offered=some buf) := by
  have hfaithful := faithful_of_run h
  refine ⟨hfaithful.inner,fun front buf offered answer back ht => ?_⟩
  exact hfaithful.rightly front _ back ht

/-- Pieces of two bytes with pauses of five milliseconds. -/
def pairs : FragmentConfig := ⟨true,2,2,5,5,true⟩

/-- A piece of which one byte is taken, a pause, a full piece, and a read. -/
def cutting : List Action :=
  [.pollWrite [1,2,3,4,5] ⟨true,0,0,.ready 1⟩,.pollWrite [2,3,4,5] ⟨false,0,0,.ready 4⟩,
    .pollWrite [2,3,4,5] ⟨true,0,0,.ready 2⟩,.pollFlush,.pollRead,
    .pollWrite [4,5] ⟨false,0,0,.pending⟩,.pollWrite [4,5] ⟨false,0,0,.ready 2⟩]

/-- The bytes arrive in order, and after the read at once. -/
theorem writes_faithful_cutting : ∃ t s, machine.Run always t s ∧
    (s.inner=[1,2,3,4,5] ∧ t=[.wrote [1,2,3,4,5] (some [1,2]) (.ready 1),
      .wrote [2,3,4,5] none .pending,.wrote [2,3,4,5] (some [2,3]) (.ready 2),.flushed,.read,
      .wrote [4,5] (some [4,5]) .pending,.wrote [4,5] (some [4,5]) (.ready 2)]) ∧
    s.inner=t.flatMap Event.reported :=
  Machine.exists_run_with allowed (fun _ _ _ ha => ⟨ha,trivial⟩) ⟨pairs,rfl⟩ cutting
    (by decide +kernel) fun _ _ h => (writes_faithful h).1

/-- An empty buffer is handed on as it is, as a piece without bytes. -/
theorem empty_buffer_offered : ∃ t s, machine.Run always t s ∧ s.stream.fragmenting=true ∧
    t=[.wrote [] (some []) (.ready 0)] ∧ ¬1≤([] : Bytes).length :=
  Machine.exists_run allowed (fun _ _ _ ha => ⟨ha,trivial⟩) ⟨pairs,rfl⟩
    [.pollWrite [] ⟨true,0,0,.ready 0⟩] (by decide +kernel)

end Writes

end MsnGuard.FragmentedWrites
