import MsnGuard.RustText
import MsnGuard.TransitionRuns

/-!
# The input side of a stream

The event loop of a session puts what a stream receives into a queue, and one reader empties the
queue into the arrays of its calls. A call may span several pieces, stop inside one, or meet the
end after it has copied something. The two threads interleave at every access to the queue and
to a counter.
-/

namespace MsnGuard.StreamInputs

open RustText TransitionRuns List

/-- Waiting bytes at which reading from the network stops. -/
def HIGH_WATERMARK_BYTES : ℤ := 128*1024

/-- Waiting bytes at which reading from the network resumes. -/
def LOW_WATERMARK_BYTES : ℤ := 32*1024

/-- What stands in the queue. -/
inductive Chunk where
  | data (bytes : Bytes)
  | eos
  | error (cause : String)
  deriving DecidableEq

/-- Does the chunk carry no data? -/
def Chunk.isTerminal : Chunk → Bool
  | .data _ => false
  | .eos => true
  | .error _ => true

/-- How a call of read ends. -/
inductive ReadResult where
  | count (n : ℕ)
  | minusOne
  | failed (cause : String)
  | interrupted
  deriving DecidableEq

/-- Where a call stands in a turn of its loop. -/
inductive Stage where
  /-- At the head of the loop. -/
  | looping
  /-- A piece has been taken, and its bytes are still counted as waiting. -/
  | uncounting (size : ℕ)
  /-- There is a piece to copy from. -/
  | copying
  deriving DecidableEq

/-- A call of read. -/
structure Reading where
  /-- The array of the caller. -/
  b : Bytes
  /-- Where the bytes go. -/
  off : ℕ
  /-- How many bytes are asked for. -/
  len : ℕ
  /-- How many have been copied. -/
  totalRead : ℕ
  /-- Where the call stands. -/
  stage : Stage
  deriving DecidableEq

/-- The bytes that a call has copied. -/
def Reading.copied (r : Reading) : Bytes := (r.b.drop r.off).take r.totalRead

/-- The part of an input that holds data: the queue and what the reader keeps. -/
structure Buffer where
  /-- Chunks that have not been taken. -/
  queue : List Chunk
  /-- The piece that is being read. -/
  current : Option Bytes
  /-- What has been read of it. -/
  currentPos : ℕ
  /-- An end that a call met after it had copied something. -/
  pendingTerminal : Option Chunk
  /-- Whether the end has been reported. -/
  finished : Bool
  /-- The call in progress. -/
  reading : Option Reading

/-- The input of a stream with its two threads. -/
structure Input extends Buffer where
  /-- Bytes that count as waiting. -/
  pendingBytes : ℤ
  /-- Whether the channel is known. -/
  channel : Bool
  /-- Whether the channel reads from the network by itself. -/
  autoRead : Bool
  /-- Tasks of the event loop that switch reading on. -/
  resumes : ℕ
  /-- The size of a piece that has been put and not been counted. -/
  offering : Option ℕ

/-- A new stream. -/
def Input.fresh : Input := ⟨⟨[],none,0,none,false,none⟩,0,false,true,0,none⟩

/-- What an observer sees. -/
inductive Event where
  /-- A chunk is put into the queue. -/
  | offered (chunk : Chunk)
  /-- A call for so many bytes ends, with the bytes it leaves in its array. -/
  | returned (len : ℕ) (result : ReadResult) (bytes : Bytes)
  deriving DecidableEq

namespace Input

/-- Put a piece of data into the queue, unless it is empty. -/
def offerData (s : Input) (bytes : Bytes) : Input × List Event :=
  if bytes=[] then (s,[])
  else ({s with queue := s.queue++[.data bytes],offering := some bytes.length},
    [.offered (.data bytes)])

/-- Count the piece that was put, and stop reading when too much is waiting. -/
def countOffered (s : Input) : Input :=
  match s.offering with
  | none => s
  | some size =>
    let pendingBytes := s.pendingBytes+size
    {s with pendingBytes := pendingBytes,offering := none,
            autoRead := s.autoRead && !(s.channel && decide (HIGH_WATERMARK_BYTES≤pendingBytes))}

/-- Put an end into the queue. -/
def offerTerminal (s : Input) (chunk : Chunk) : Input × List Event :=
  ({s with queue := s.queue++[chunk]},[.offered chunk])

/-- A call ends. -/
def endRead (s : Input) (r : Reading) (result : ReadResult) : Input × List Event :=
  ({s with reading := none},[.returned r.len result r.copied])

/-- A call begins. A call for nothing ends at once, and so does one after the end. -/
def read (s : Input) (b : Bytes) (off len : ℕ) : Input × List Event :=
  let r : Reading := ⟨b,off,len,0,.looping⟩
  if len=0 then s.endRead r (.count 0)
  else if s.finished=true ∧ s.current=none then s.endRead r .minusOne
  else ({s with reading := some r},[])

/-- Is there nothing left to copy from the piece that is being read? -/
def exhausted (s : Input) : Bool :=
  match s.current with
  | none => true
  | some data => decide (data.length ≤ s.currentPos)

/-- The next chunk: an end that was kept, or the first of the queue. -/
def nextChunk (s : Input) : Option (Chunk × Input) :=
  match s.pendingTerminal,s.queue with
  | some chunk,_ => some (chunk,{s with pendingTerminal := none})
  | none,chunk::rest => some (chunk,{s with queue := rest})
  | none,[] => none

/-- Act on a chunk that was taken. -/
def receive (s : Input) (r : Reading) (chunk : Chunk) : Input × List Event :=
  match chunk with
  | .data bytes =>
    ({s with current := some bytes,currentPos := 0,
             reading := some {r with stage := .uncounting bytes.length}},[])
  | .eos =>
    if 0<r.totalRead then {s with pendingTerminal := some .eos}.endRead r (.count r.totalRead)
    else {s with finished := true}.endRead r .minusOne
  | .error cause =>
    if 0<r.totalRead then
      {s with pendingTerminal := some (.error cause)}.endRead r (.count r.totalRead)
    else {s with finished := true}.endRead r (.failed cause)

/-- Copy into an array; a place outside it is an error. -/
def arraycopy (data b : Bytes) (pos : ℕ) : Option Bytes :=
  if pos+data.length≤b.length then some (b.take pos++data++b.drop (pos+data.length)) else none

/-- Copy from the current piece what the call has room for. -/
def copy (s : Input) (r : Reading) (data : Bytes) : Option Input :=
  let toCopy := min (r.len-r.totalRead) (data.length-s.currentPos)
  (arraycopy ((data.drop s.currentPos).take toCopy) r.b (r.off+r.totalRead)).map fun b =>
    {s with current := if data.length ≤ s.currentPos+toCopy then none else some data,
            currentPos := s.currentPos+toCopy,
            reading := some {r with b := b,totalRead := r.totalRead+toCopy,stage := .looping}}

/-- The next step of a call. Without a chunk a call that has copied nothing waits. -/
def advance (s : Input) (r : Reading) : Option (Input × List Event) :=
  match r.stage with
  | .looping =>
    if r.len≤r.totalRead then some (s.endRead r (.count r.totalRead))
    else if s.exhausted then
      match s.nextChunk with
      | some (chunk,s) => some (s.receive r chunk)
      | none => some (if r.totalRead=0 then (s,[]) else s.endRead r (.count r.totalRead))
    else some ({s with reading := some {r with stage := .copying}},[])
  | .uncounting size =>
    let remaining := s.pendingBytes-size
    some ({s with pendingBytes := remaining,reading := some {r with stage := .copying},
                  resumes := if s.channel && decide (remaining≤LOW_WATERMARK_BYTES)
                    then s.resumes+1 else s.resumes},[])
  | .copying =>
    match s.current with
    | none => some (s.endRead r (.count r.totalRead))
    | some data => (s.copy r data).map fun s => (s,[])

/-- Does the call wait in the queue, or is it about to look there for the first time? -/
def taking (s : Input) (r : Reading) : Bool :=
  decide (r.stage=.looping) && decide (r.totalRead=0) && s.exhausted &&
    s.pendingTerminal.isNone

end Input

/-- What the two threads do. -/
inductive Action where
  | attachChannel
  | offerData (bytes : Bytes)
  | countOffered
  | offerEnd
  | offerError (cause : String)
  /-- The event loop switches reading on. -/
  | resume
  | read (b : Bytes) (off len : ℕ)
  /-- The call goes on. -/
  | advance
  /-- The thread of the call is interrupted while it waits. -/
  | interrupt
  deriving DecidableEq

/-- The event loop does one thing after the other, and so does the reader. A
call names a place inside its array. -/
def allowed (s : Input) : Action → Bool
  | .attachChannel => true
  | .offerData _ | .offerEnd | .offerError _ | .resume => s.offering.isNone
  | .countOffered => s.offering.isSome
  | .read b off len => s.reading.isNone && decide (off+len≤b.length)
  | .advance => s.reading.isSome
  | .interrupt => s.reading.any s.taking

/-- What an action does. -/
def exec (s : Input) : Action → Option (Input × List Event)
  | .attachChannel => some ({s with channel := true},[])
  | .offerData bytes => some (s.offerData bytes)
  | .countOffered => some (s.countOffered,[])
  | .offerEnd => some (s.offerTerminal .eos)
  | .offerError cause => some (s.offerTerminal (.error cause))
  | .resume => some (if s.resumes=0 then (s,[])
      else ({s with resumes := s.resumes-1,autoRead := true},[]))
  | .read b off len => some (s.read b off len)
  | .advance =>
    match s.reading with
    | none => some (s,[])
    | some r => s.advance r
  | .interrupt =>
    match s.reading with
    | none => some (s,[])
    | some r => some (s.endRead r .interrupted)

/-- The input as a machine. -/
def machine : Machine Input Action Event where
  start s := s=.fresh
  allowed s a := allowed s a=true
  exec := exec

section Histories

/-- The chunks that have been put into the queue. -/
def offeredChunks (t : List Event) : List Chunk :=
  t.filterMap fun
    | .offered chunk => some chunk
    | .returned _ _ _ => none

/-- The bytes that the calls have left in their arrays. -/
def returnedBytes (t : List Event) : Bytes :=
  t.flatMap fun
    | .offered _ => []
    | .returned _ _ bytes => bytes

/-- The data of chunks. -/
def dataOf (chunks : List Chunk) : Bytes :=
  chunks.flatMap fun
    | .data bytes => bytes
    | .eos => []
    | .error _ => []

/-- The bytes offered before the first end. -/
def bytesBefore (t : List Event) : Bytes :=
  dataOf ((offeredChunks t).takeWhile fun chunk => !chunk.isTerminal)

/-- The first end that was offered. -/
def firstTerminal (t : List Event) : Option Chunk := (offeredChunks t).find? Chunk.isTerminal

/-- Does the result report the end? -/
def ReadResult.isReport : ReadResult → Bool
  | .minusOne => true
  | .failed _ => true
  | .count _ => false
  | .interrupted => false

/-- The end has been reported. -/
def Reported (t : List Event) : Prop :=
  ∃ len result bytes, .returned len result bytes∈t ∧ result.isReport=true

theorem offeredChunks_append (t new : List Event) :
    offeredChunks (t++new)=offeredChunks t++offeredChunks new := filterMap_append

theorem returnedBytes_append (t new : List Event) :
    returnedBytes (t++new)=returnedBytes t++returnedBytes new := flatMap_append

theorem dataOf_append (a b : List Chunk) : dataOf (a++b)=dataOf a++dataOf b :=
  flatMap_append

theorem dataOf_terminal {chunk : Chunk} (h : chunk.isTerminal=true) : dataOf [chunk]=[] := by
  cases chunk with
  | data bytes => cases h
  | eos | error cause => rfl

theorem reported_append_one {t : List Event} {len : ℕ} {result : ReadResult} {bytes : Bytes} :
    Reported (t++[.returned len result bytes]) ↔ Reported t ∨ result.isReport=true := by
  constructor
  · rintro ⟨len',result',bytes',hmem,hreport⟩
    rcases mem_append.mp hmem with hmem | hmem
    · exact .inl ⟨len',result',bytes',hmem,hreport⟩
    · cases mem_singleton.mp hmem
      exact .inr hreport
  · rintro (⟨len',result',bytes',hmem,hreport⟩ | hreport)
    · exact ⟨len',result',bytes',mem_append_left _ hmem,hreport⟩
    · exact ⟨len,result,bytes,mem_append_right _ mem_cons_self,hreport⟩

theorem reported_append_offered {t : List Event} {chunk : Chunk} :
    Reported (t++[.offered chunk]) ↔ Reported t := by
  constructor
  · rintro ⟨len,result,bytes,hmem,hreport⟩
    rcases mem_append.mp hmem with hmem | hmem
    · exact ⟨len,result,bytes,hmem,hreport⟩
    · cases mem_singleton.mp hmem
  · rintro ⟨len,result,bytes,hmem,hreport⟩
    exact ⟨len,result,bytes,mem_append_left _ hmem,hreport⟩

end Histories

section Views

/-- What the call in progress has copied. -/
def Buffer.progress (s : Buffer) : Bytes :=
  match s.reading with
  | none => []
  | some r => r.copied

/-- What is left of the current piece. -/
def Buffer.rest (s : Buffer) : Bytes :=
  match s.current with
  | none => []
  | some data => data.drop s.currentPos

/-- A call asks for something, into a place inside its array. -/
structure Reading.Fits (r : Reading) : Prop where
  inside : r.off+r.len≤r.b.length
  some : 0<r.len
  bound : r.totalRead≤r.len

/-- The copied bytes are as many as were counted. -/
theorem Reading.Fits.copied_length {r : Reading} (h : r.Fits) : r.copied.length=r.totalRead := by
  have hinside := h.inside
  have hbound := h.bound
  simp only [Reading.copied,length_take,length_drop]
  omega

/-- How the end is reported. -/
def Chunk.report : Chunk → ReadResult
  | .error cause => .failed cause
  | _ => .minusOne

/-- A call does not have to wait: it has copied something, is inside a turn, or
finds something to read. -/
def Input.Ready (s : Input) (r : Reading) : Prop :=
  0<r.totalRead ∨ r.stage≠.looping ∨ s.exhausted=false ∨ s.nextChunk.isSome=true

/-- Steps that a call can still take. -/
def Reading.left (r : Reading) : ℕ :=
  4*(r.len-r.totalRead)+match r.stage with
    | .looping => 3
    | .uncounting _ => 2
    | .copying => 1

end Views

end MsnGuard.StreamInputs
