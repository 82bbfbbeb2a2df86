import MsnGuard.SmartDnsMessages

/-!
# What the resolver reads of a packet

The resolver looks at the number of a packet, at three of its flags and at where its
first question ends. A packet that is too short has none of these.
-/

namespace MsnGuard.SmartDnsPackets

open RustText SmartDnsMessages List

/-- The number of a packet, or minus one. -/
def transactionId (packet : Bytes) : ℤ := if packet.length<2 then -1 else word packet 0

/-- Is the packet a response? -/
def isResponse (packet : Bytes) : Bool :=
  if packet.length<3 then false else packet.getD 2 0 &&& 0x80 != 0

/-- Did the server have more to say? -/
def isTruncated (packet : Bytes) : Bool :=
  if packet.length<3 then false else packet.getD 2 0 &&& 0x02 != 0

/-- The code of a response, or minus one. -/
def rcode (packet : Bytes) : ℤ :=
  if packet.length<4 then -1 else (packet.getD 3 0 &&& 0x0F).toNat

/-- The place behind a name with at most so many labels. -/
def skipName (packet : Bytes) : ℕ → ℕ → Option ℕ
  | left,place =>
    if packet.length≤place then none
    else
      let len := packet.getD place 0
      if len &&& 0xC0=0xC0 then if packet.length≤place+1 then none else some (place+2)
      else if len=0 then some (place+1)
      else if len &&& 0xC0≠0 then none
      else if packet.length<place+1+len.toNat then none
      else match left with
        | 0 => none
        | left+1 => skipName packet left (place+1+len.toNat)

/-- The place behind the first question. -/
def questionEnd (packet : Bytes) : Option ℕ :=
  if packet.length<12 then none
  else if word packet 4=0 then none
  else (skipName packet 128 12).bind fun nameEnd =>
    if packet.length<nameEnd+4 then none else some (nameEnd+4)

/-- A response without records: the query up to its question, with other flags. -/
def buildResponse (query : Bytes) (code : UInt8) : Bytes :=
  let flags := 0x80 ||| (code &&& 0x0F)
  if query.length<12 then
    (if query.length<2 then [0,0] else query.take 2)++[0x81,flags,0,0,0,0,0,0,0,0]
  else match questionEnd query with
    | none => query.take 2++[0x81,flags,0,1,0,0,0,0,0,0]
    | some stop => query.take 2++[0x80 ||| (query.getD 2 0 &&& 0x01),flags,0,1,0,0,0,0,0,0] ++
        (query.take stop).drop 12

/-- All servers have failed. -/
def servfailResponse (query : Bytes) : Bytes := buildResponse query 2

/-- The first two bytes of a packet. -/
theorem exists_two_bytes {packet : Bytes} (h : 2≤packet.length) :
    ∃ first second rest, packet=first::second::rest := by
  match packet with
  | first::second::rest => exact ⟨first,second,rest,rfl⟩

theorem buildResponse_length_le (query : Bytes) (code : UInt8) :
    (buildResponse query code).length ≤ max 12 query.length := by
  unfold buildResponse
  split
  · split <;> simp only [length_append,length_take,length_cons,length_nil] <;>
      omega
  · split <;>
      simp only [length_append,length_take,length_drop,length_cons,
        length_nil] <;> omega

end MsnGuard.SmartDnsPackets
