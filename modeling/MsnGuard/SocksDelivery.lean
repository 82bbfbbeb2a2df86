import MsnGuard.SocksFronts

/-!
# What reaches the service behind a request

The handshake is read through a buffer, and the buffer may take bytes that the client sent after
its request. The gateway for datagrams goes on with the buffer; a relay and the DNS server go on
with the socket.
-/

namespace MsnGuard.SocksDelivery

open RustText BufferedReads SocksFronts

variable {build : Builder} {skip : Source → Option Source} {p : Platform} {upstream : Option Bytes}
  {host : Text} {port : ℕ} {s : Source} {service : Service} {request : Request}

/-- How long an address is behind its type, which is at some place. -/
def addressLength (bytes : Bytes) (place : ℕ) : ℕ :=
  if bytes[place]?=some 1 then 4
  else if bytes[place]?=some 4 then 16
  else if bytes[place]?=some 3 then 1+(bytes.getD (place+1) 0).toNat
  else 0

/-- Where the greeting of a client ends. -/
def greetingEnd (bytes : Bytes) : ℕ := 2+(bytes.getD 1 0).toNat

/-- Where the request of a client ends. -/
def requestEnd (bytes : Bytes) : ℕ :=
  greetingEnd bytes+4+addressLength bytes (greetingEnd bytes+3)+2

theorem requestEnd_lt (bytes : Bytes) : requestEnd bytes<bufferSize := by
  have hgreeting : greetingEnd bytes≤257 := by
    have hmethods := (bytes.getD 1 0).toNat_lt
    rw [greetingEnd]
    omega
  have haddress : addressLength bytes (greetingEnd bytes+3)≤256 := by
    have hname := (bytes.getD (greetingEnd bytes+3+1) 0).toNat_lt
    rw [addressLength]
    split
    · omega
    · split
      · omega
      · split <;> omega
  rw [requestEnd,bufferSize]
  omega

theorem bufferSize_pos : 0<bufferSize := by decide

section Handshake

variable {s : Source}
variable {n : ℕ} {rest : Source} {request : Request}

/-- The first byte, and the reader behind it. -/
theorem read_eq (s : Source) : s.read bufferSize=(s.pending[0]?,s.advance bufferSize 1) :=
  s.read_advance bufferSize_pos 0

/-- The next byte after so many. -/
theorem read_advance_eq (s : Source) (n : ℕ) :
    (s.advance bufferSize n).read bufferSize=(s.pending[n]?,s.advance bufferSize (n+1)) :=
  s.read_advance bufferSize_pos n

/-- Some bytes after so many leave the reader behind them. -/
theorem readFully_advance {count : ℕ} {bytes : Bytes}
    (h : (s.advance bufferSize n).readFully bufferSize count=some (bytes,rest)) :
    rest=s.advance bufferSize (n+count) := by
  rw [Buffered.readFully_eq bufferSize_pos] at h
  split_ifs at h
  cases h
  rw [Buffered.advance_add]

/-- A greeting is read to its end. -/
theorem greetWith_ok {least : ℕ} {accepts : Bytes → Bool}
    (h : greetWith least accepts s=.ok rest) :
    rest=s.advance bufferSize (greetingEnd s.pending) := by
  simp only [greetWith,read_eq s,read_advance_eq] at h
  split at h
  · cases h
  · split at h
    · cases h
    · rename_i count hcount
      split at h
      · cases h
      · split at h
        · cases h
        · rename_i methods left hfully
          split_ifs at h
          cases h
          rw [readFully_advance hfully,greetingEnd,List.getD_eq_getElem?_getD,hcount]
          rfl

/-- A destination is read to its end. -/
theorem readDestination_ok {destination : Destination}
    (h : readDestination (s.advance bufferSize n)=.ok (destination,rest)) :
    rest=s.advance bufferSize (n+1+addressLength s.pending n) := by
  simp only [readDestination,read_advance_eq] at h
  rw [addressLength]
  split at h
  · rename_i htype
    rw [if_pos htype]
    split at h
    · cases h
    · rename_i hfully
      cases h
      exact readFully_advance hfully
  · rename_i hfirst
    rw [if_neg hfirst]
    split at h
    · rename_i htype
      rw [if_pos htype]
      split at h
      · cases h
      · rename_i hfully
        cases h
        exact readFully_advance hfully
    · rename_i hsecond
      rw [if_neg hsecond]
      split at h
      · rename_i htype
        rw [if_pos htype]
        split at h
        · cases h
        · rename_i count hcount
          split at h
          · cases h
          · split at h
            · cases h
            · rename_i hfully
              cases h
              rw [readFully_advance hfully,List.getD_eq_getElem?_getD,hcount,Option.getD_some]
              congr 1
              omega
      · cases h

/-- A request is read to its end. -/
theorem readRequest_ok (h : readRequest (s.advance bufferSize n)=.ok (request,rest)) :
    rest=s.advance bufferSize (n+4+addressLength s.pending (n+3)+2) := by
  simp only [readRequest,read_advance_eq] at h
  split at h
  · cases h
  · split at h
    · cases h
    · rename_i destination left hdestination
      have hleft := readDestination_ok hdestination
      rw [hleft] at h
      simp only [read_advance_eq] at h
      cases h
      rfl

/-- The handshake is read to the end of the request, in every front. -/
theorem handshake_ok {f : Front} (h : f.handshake s=.ok (request,rest)) :
    rest=s.advance bufferSize (requestEnd s.pending) := by
  rw [Front.handshake] at h
  split at h
  · cases h
  · rename_i greeted hgreet
    have hend : greeted=s.advance bufferSize (greetingEnd s.pending) := by
      cases f <;> exact greetWith_ok hgreet
    split at h
    · cases h
    · rename_i r hrequest
      rw [hend] at hrequest
      cases h
      exact readRequest_ok hrequest

end Handshake

/-- The relay gets what is left on the socket. -/
theorem relay_service (h : (relay build skip p upstream host port s).service=some service) :
    service=.upstream s.pieces.flatten := by
  unfold relay at h
  split at h
  · cases h
  · dsimp only at h
    split at h
    · cases h
    · split at h
      · cases h
      · split at h
        · cases h
        · cases h
          rw [pipe_eq (by decide)]

/-- The bytes of the client that a service gets, among those that the reader of the handshake
has left. -/
def Gets (s : Source) : Service → Prop
  | .upstream delivered => delivered=s.pieces.flatten
  | .udpgw delivered => delivered=s.pending
  | .dns delivered => delivered=s.pieces.flatten
  | .udpAssociate => True

theorem answerWithGateway_gets {refusal : UInt8}
    (h : (answerWithGateway refusal build skip p upstream request s).service=some service) :
    Gets s service := by
  rw [answerWithGateway] at h
  split at h
  · cases h
  · split at h
    · cases h
      rfl
    · rw [relay_service h]
      rfl

theorem connect_gets (h : (SmartDnsFront.connect p upstream host port s).service=some service) :
    Gets s service := by
  simp only [SmartDnsFront.connect] at h
  split at h
  · cases h
    rfl
  · split_ifs at h
    rw [relay_service h]
    rfl

/-- Only the gateway for datagrams goes on with the buffer. -/
theorem answer_gets {f : Front} (h : (f.answer p upstream request s).service=some service) :
    Gets s service := by
  cases f with
  | smartDns =>
    simp only [Front.answer,SmartDnsFront.answer] at h
    split at h
    · exact connect_gets h
    · split_ifs at h
      cases h
      trivial
  | warp | shard | tor => exact answerWithGateway_gets h

/-- The reader behind the request has what the client sent after it, and has kept nothing of
that exactly when the request ends where a piece ends. -/
theorem advance_request (pieces : List Bytes) :
    ((⟨[],pieces⟩ : Source).advance bufferSize (requestEnd pieces.flatten)).pending=
        pieces.flatten.drop (requestEnd pieces.flatten) ∧
      (((⟨[],pieces⟩ : Source).advance bufferSize (requestEnd pieces.flatten)).pieces.flatten=
          pieces.flatten.drop (requestEnd pieces.flatten) ↔
        ∃ front back, pieces=front++back ∧
          front.flatten=pieces.flatten.take (requestEnd pieces.flatten)) := by
  have hpending := Buffered.advance_pending bufferSize_pos (requestEnd pieces.flatten)
    (⟨[],pieces⟩ : Source)
  refine ⟨hpending,?_⟩
  rw [←boundary_iff,←Buffered.advance_buffer_eq_nil_iff (requestEnd_lt _)]
  have hsplit : ((⟨[],pieces⟩ : Source).advance bufferSize (requestEnd pieces.flatten)).buffer ++
      ((⟨[],pieces⟩ : Source).advance bufferSize (requestEnd pieces.flatten)).pieces.flatten=
        pieces.flatten.drop (requestEnd pieces.flatten) := hpending
  rw [←hsplit]
  constructor
  · intro h
    simpa using h
  · intro h
    rw [h,List.nil_append]

/-- In every front, a granted request gets exactly the bytes that the client sent after it if
and only if the request ends where a piece ends. The gateway for datagrams always does. -/
theorem delivered_iff (f : Front) (p : Platform) (upstream : Option Bytes) (pieces : List Bytes)
    (delivered : Bytes) :
    ((f.handleClient p upstream pieces).service=some (.upstream delivered) ∨
        (f.handleClient p upstream pieces).service=some (.dns delivered) →
      (delivered=pieces.flatten.drop (requestEnd pieces.flatten) ↔
        ∃ front back, pieces=front++back ∧
          front.flatten=pieces.flatten.take (requestEnd pieces.flatten))) ∧
      ((f.handleClient p upstream pieces).service=some (.udpgw delivered) →
        delivered=pieces.flatten.drop (requestEnd pieces.flatten)) := by
  obtain ⟨hpending,hpieces⟩ := advance_request pieces
  rw [Front.handleClient]
  split
  · simp
  · rename_i request s hhandshake
    have hs := handshake_ok hhandshake
    rw [show (⟨[],pieces⟩ : Source).pending=pieces.flatten from rfl] at hs
    subst hs
    refine ⟨fun hservice => ?_,fun hservice => ?_⟩
    · have hgets : delivered=((⟨[],pieces⟩ : Source).advance bufferSize
          (requestEnd pieces.flatten)).pieces.flatten := by
        rcases hservice with hservice | hservice
        · exact answer_gets hservice
        · exact answer_gets hservice
      rw [hgets]
      exact hpieces
    · exact (answer_gets hservice).trans hpending

/-- A client waits for each answer, and its byte arrives. -/
theorem delivered_waiting :
    ∃ pieces upstream, pieces=[[5,1,0],[5,1,0,3,1,97,1,187],[42]] ∧
      upstream=some [5,0,5,0,0,1,0,0,0,0,0,0] ∧
      (Front.tor.handleClient plainPlatform upstream pieces).service=some (.upstream [42]) ∧
      [42]=pieces.flatten.drop (requestEnd pieces.flatten) := by
  refine ⟨_,_,rfl,rfl,by decide +kernel,?_⟩
  have hiff := (delivered_iff .tor plainPlatform (some [5,0,5,0,0,1,0,0,0,0,0,0])
    [[5,1,0],[5,1,0,3,1,97,1,187],[42]] [42]).1 (.inl (by decide +kernel))
  exact hiff.mpr ⟨[[5,1,0],[5,1,0,3,1,97,1,187]],[[42]],rfl,by decide⟩

/-- A byte that arrives together with the request is lost in every front. -/
theorem delivered_lost :
    ∃ pieces upstream, pieces=[[5,1,0],[5,1,0,1,93,184,216,34,1,187,42]] ∧
      upstream=some [5,0,5,0,0,1,0,0,0,0,0,0] ∧
      pieces.flatten.drop (requestEnd pieces.flatten)=[42] ∧
      ∀ f : Front, (f.handleClient plainPlatform upstream pieces).service=some (.upstream []) := by
  refine ⟨_,_,rfl,rfl,by decide,fun f => ?_⟩
  cases f <;> decide +kernel

end MsnGuard.SocksDelivery
