import MsnGuard.FramedStreams
import MsnGuard.OctetsVarint

/-!
# Capsules of the tunnel stream

The sender writes packets as datagram capsules, each with its kind and length before it. The
receiver pushes whatever bytes arrive into a parser, takes all complete capsules and strips an
optional zero context id from their payload.
-/

namespace MsnGuard.MasqueCapsules

open FramedStreams OctetsVarint List

variable {len : ℕ} {payload data packet : Bytes}

/-- Kind of a capsule that assigns addresses. -/
def CAPSULE_ADDRESS_ASSIGN : ℕ := 0x01

/-- Kind of a capsule that asks for an address. -/
def CAPSULE_ADDRESS_REQUEST : ℕ := 0x02

/-- Kind of a capsule that advertises routes. -/
def CAPSULE_ROUTE_ADVERTISEMENT : ℕ := 0x03

/-- Kind of a capsule that carries a packet. -/
def CAPSULE_DATAGRAM : ℕ := 0x00

/-- The context id of plain IP packets. -/
def CONNECT_IP_CONTEXT_ID : ℕ := 0

/-- The parser forgets its buffer rather than let it grow beyond this. -/
def MAX_CAPSULE_BUF : ℕ := 256*1024

/-- One address of an assignment. -/
structure AssignedAddress where
  /-- The request that is answered. -/
  requestId : ℕ
  /-- Four or six. -/
  ipVersion : UInt8
  /-- The address in network byte order. -/
  address : Bytes
  /-- Length of the network part. -/
  prefixLen : UInt8
  deriving DecidableEq

/-- One range of an advertisement. -/
structure RouteAdvertisement where
  /-- Four or six. -/
  ipVersion : UInt8
  /-- First address of the range. -/
  start : Bytes
  /-- Last address of the range. -/
  stop : Bytes
  /-- The protocol that may be sent there, zero for all. -/
  protocol : UInt8
  deriving DecidableEq

/-- What the parser returns. -/
inductive Capsule where
  | addressAssign (addresses : List AssignedAddress)
  | addressRequest
  | datagram (payload : Bytes)
  | routeAdvertisement (routes : List RouteAdvertisement)
  | unknown (kind : ℕ) (payload : Bytes)
  deriving DecidableEq

/-- Bytes that the sender reserves for a variable-length integer. -/
def varintLenOf (v : ℕ) : ℕ :=
  if v<64 then 1
  else if v<16384 then 2
  else if v<1073741824 then 4
  else 8

/-- Bytes of a whole capsule. -/
def capsuleLen (kind : ℕ) (value : Bytes) : ℕ :=
  varintLenOf kind+varintLenOf value.length+value.length

/-- Write a capsule onto the end of a buffer. The buffer is extended by zeros
first; a write that does not fit leaves them. A length without an encoding stops
the program. -/
def appendCapsule (out : Bytes) (kind : ℕ) (value : Bytes) : Option Bytes :=
  let b : OctetsMut := ⟨List.replicate (capsuleLen kind value) 0,0⟩
  ((b.putVarint kind).orKeep b).bind fun b =>
    ((b.putVarint value.length).orKeep b).bind fun b =>
      ((b.putBytes value).orKeep b).map fun b => out++b.buf

/-- Write one packet onto the end of a buffer. -/
def appendDatagramCapsule (out ipPacket : Bytes) : Option Bytes :=
  appendCapsule out CAPSULE_DATAGRAM ipPacket

/-- The error text of a read beyond the end. -/
def oct {α : Type} (r : Option α) : Except String α :=
  match r with
  | some a => .ok a
  | none => .error "BufferTooShortError"

/-- Length of an address of the given version. -/
def addrLen (ipVersion : UInt8) : Except String ℕ :=
  match ipVersion.toNat with
  | 4 => .ok 4
  | 6 => .ok 16
  | version => .error ("bad ip version " ++ toString version)

/-- Read entries until the buffer is used up. Every entry takes bytes, so the
length of the buffer is enough fuel. -/
def readEntries {α : Type} (entry : Octets → Except String (α × Octets)) :
    ℕ → Octets → Except String (List α)
  | 0,_ => .ok []
  | fuel+1,b =>
    if b.cap=0 then .ok []
    else do
      let (a,b) ← entry b
      let more ← readEntries entry fuel b
      return a::more

/-- Read one assigned address. -/
def assignedAddress (b : Octets) : Except String (AssignedAddress × Octets) := do
  let (requestId,b) ← oct b.getVarint
  let (ipVersion,b) ← oct (b.getU 1)
  let len ← addrLen (UInt8.ofNat ipVersion)
  let (address,b) ← oct (b.getBytes len)
  let (prefixLen,b) ← oct (b.getU 1)
  return (⟨requestId,UInt8.ofNat ipVersion,address,UInt8.ofNat prefixLen⟩,b)

/-- The addresses of an assignment. -/
def parseAddressAssign (value : Bytes) : Except String (List AssignedAddress) :=
  readEntries assignedAddress value.length (Octets.withSlice value)

/-- Read one advertised range. -/
def routeAdvertisement (b : Octets) : Except String (RouteAdvertisement × Octets) := do
  let (ipVersion,b) ← oct (b.getU 1)
  let len ← addrLen (UInt8.ofNat ipVersion)
  let (start,b) ← oct (b.getBytes len)
  let (stop,b) ← oct (b.getBytes len)
  let (protocol,b) ← oct (b.getU 1)
  return (⟨UInt8.ofNat ipVersion,start,stop,UInt8.ofNat protocol⟩,b)

/-- The ranges of an advertisement. -/
def parseRouteAdvertisement (value : Bytes) : Except String (List RouteAdvertisement) :=
  readEntries routeAdvertisement value.length (Octets.withSlice value)

section Records

variable {α ι : Type} {b b' : Octets} {n : ℕ} {entry : Octets → Except String (α × Octets)}
  {encode : ι → Bytes} {value : ι → α}

/-- A reader takes exactly the records of a code, each of at least one byte. -/
structure Reads (entry : Octets → Except String (α × Octets)) (encode : ι → Bytes)
    (value : ι → α) : Prop where
  iff : ∀ b a b', entry b=.ok (a,b') ↔ ∃ r, value r=a ∧ b.Took (encode r) b'
  pos : ∀ r, 0<(encode r).length

theorem readEntries_end (entry : Octets → Except String (α × Octets)) (h : b.cap=0) (fuel : ℕ) :
    readEntries entry fuel b=.ok [] := by
  cases fuel with
  | zero => rfl
  | succ fuel => exact if_pos h

/-- With as much fuel as bytes are left the loop ends at the end of the buffer or
with an error; more fuel changes nothing. -/
theorem readEntries_fuel (hentry : Reads entry encode value) {m : ℕ} (hn : b.cap≤n)
    (hm : b.cap ≤ m) : readEntries entry n b=readEntries entry m b := by
  induction n generalizing m b with
  | zero => rw [readEntries_end entry (by omega),readEntries_end entry (by omega)]
  | succ n ih =>
    by_cases hcap : b.cap=0
    · rw [readEntries_end entry hcap,readEntries_end entry hcap]
    · cases m with
      | zero => omega
      | succ m =>
        rw [readEntries,readEntries,if_neg hcap,if_neg hcap]
        cases hread : entry b with
        | error e => rfl
        | ok read =>
          obtain ⟨r,-,htook⟩ := (hentry.iff b _ _).mp hread
          have hless := htook.cap
          have hpos := hentry.pos r
          have hrest : readEntries entry n read.2=readEntries entry m read.2 :=
            ih (by omega) (by omega)
          change (readEntries entry n read.2 >>= _)=(readEntries entry m read.2 >>= _)
          rw [hrest]

theorem bind_eq_ok {β γ : Type} {x : Except String β} {f : β → Except String γ} {c : γ} :
    (x >>= f)=.ok c ↔ ∃ a, x=.ok a ∧ f a=.ok c := by
  cases x with
  | error e => exact ⟨nofun,nofun⟩
  | ok a => exact ⟨fun h => ⟨a,rfl,h⟩,fun ⟨_,ha,h⟩ => Except.ok.inj ha ▸ h⟩

/-- The loop returns the records of which the buffer is made. -/
theorem readEntries_iff (hentry : Reads entry encode value) (hn : b.cap≤n) (out : List α) :
    readEntries entry n b=.ok out ↔
      ∃ records : List ι, b.rest=records.flatMap encode ∧ records.map value=out := by
  have hlength := b.rest_length
  induction n generalizing b out with
  | zero =>
    rw [eq_nil_of_length_eq_zero (by omega : b.rest.length=0),readEntries]
    constructor
    · intro h
      exact ⟨[],rfl,Except.ok.inj h⟩
    · rintro ⟨records,hrest,rfl⟩
      cases records with
      | nil => rfl
      | cons r records =>
        have hpos := hentry.pos r
        rw [(List.append_eq_nil_iff.mp hrest.symm).1] at hpos
        cases hpos
  | succ n ih =>
    by_cases hcap : b.cap=0
    · have hend := ih (by omega) out hlength
      rw [readEntries_end entry hcap] at hend ⊢
      exact hend
    rw [readEntries,if_neg hcap,bind_eq_ok]
    constructor
    · rintro ⟨⟨a,b'⟩,hread,h⟩
      obtain ⟨more,hmore,hout⟩ := bind_eq_ok.mp h
      obtain ⟨r,hr,htook⟩ := (hentry.iff b a b').mp hread
      have hless := htook.cap
      have hpos := hentry.pos r
      obtain ⟨records,hrest,hrecords⟩ := (ih (by omega) more b'.rest_length).mp hmore
      refine ⟨r::records,?_,?_⟩
      · rw [htook.rest,hrest,flatMap_cons]
      · rw [map_cons,hr,hrecords]
        exact Except.ok.inj hout
    · rintro ⟨records,hrest,rfl⟩
      cases records with
      | nil =>
        rw [hrest] at hlength
        exact absurd hlength.symm hcap
      | cons r records =>
        have htook : b.Took (encode r) (b.skip (encode r).length) :=
          ⟨⟨_,hrest.symm⟩,rfl⟩
        have htail := htook.rest
        rw [hrest,flatMap_cons] at htail
        have hless := htook.cap
        have hpos := hentry.pos r
        refine ⟨_,(hentry.iff b _ _).mpr ⟨r,rfl,htook⟩,bind_eq_ok.mpr ⟨_,?_,rfl⟩⟩
        exact (ih (by omega) _ (Octets.rest_length _)).mpr
          ⟨records,(append_cancel_left htail).symm,rfl⟩

theorem oct_eq_ok {r : Option α} {a : α} : oct r=.ok a ↔ r=some a := by
  cases r with
  | none => exact ⟨nofun,nofun⟩
  | some x => exact ⟨fun h => congrArg some (Except.ok.inj h),fun h => congrArg _ (Option.some.inj h)⟩

/-- Version four has addresses of four bytes and version six of sixteen. -/
theorem addrLen_iff {version : UInt8} : addrLen version=.ok n ↔
    (version=4 ∧ n=4) ∨ (version=6 ∧ n=16) := by
  have hversion : ∀ k : ℕ, k<256 → (version.toNat=k ↔ version=UInt8.ofNat k) := by
    intro k hk
    rw [←UInt8.toNat_inj,UInt8.toNat_ofNat',Nat.mod_eq_of_lt hk]
  have hfour := hversion 4 (by decide)
  have hsix := hversion 6 (by decide)
  unfold addrLen
  split
  · rename_i h
    rw [hfour.mp h]
    simp [eq_comm]
  · rename_i h
    rw [hsix.mp h]
    simp [eq_comm]
  · rename_i hno4 hno6
    refine ⟨nofun,?_⟩
    rintro (⟨rfl,-⟩ | ⟨rfl,-⟩)
    · exact absurd rfl hno4
    · exact absurd rfl hno6

/-- An address as it may be sent: the id in any of its encodings. -/
structure AddressRecord extends AssignedAddress where
  /-- Length of the encoding of the id. -/
  idLen : ℕ
  id_fits : VarintFits requestId idLen
  version : (ipVersion=4 ∧ address.length=4) ∨ (ipVersion=6 ∧ address.length=16)

/-- The bytes of an address. -/
def AddressRecord.bytes (r : AddressRecord) : Bytes :=
  varintBytes r.requestId r.idLen++([r.ipVersion]++(r.address++[r.prefixLen]))

/-- A range as it may be sent. -/
structure RouteRecord extends RouteAdvertisement where
  version : (ipVersion=4 ∧ start.length=4) ∨ (ipVersion=6 ∧ start.length=16)
  stop_length : stop.length=start.length

/-- The bytes of a range. -/
def RouteRecord.bytes (r : RouteRecord) : Bytes :=
  [r.ipVersion]++(r.start++(r.stop++[r.protocol]))

theorem assignedAddress_reads :
    Reads assignedAddress AddressRecord.bytes AddressRecord.toAssignedAddress where
  iff b a b' := by
    simp only [assignedAddress,bind_eq_ok,oct_eq_ok,getVarint_iff,getByte_iff,getBytes_iff,
      addrLen_iff,Prod.exists]
    constructor
    · rintro ⟨id,b₁,⟨idLen,hid,h₁⟩,_,b₂,⟨x,rfl,h₂⟩,len,hlen,address,b₃,⟨rfl,h₃⟩,_,b₄,⟨y,rfl,h₄⟩,h⟩
      rw [UInt8.ofNat_toNat] at hlen
      cases h
      rw [UInt8.ofNat_toNat,UInt8.ofNat_toNat]
      refine ⟨⟨⟨id,x,address,y⟩,idLen,hid,hlen⟩,rfl,?_⟩
      simp only [AddressRecord.bytes,took_append_iff]
      exact ⟨b₁,h₁,b₂,h₂,b₃,h₃,h₄⟩
    · rintro ⟨r,rfl,htook⟩
      simp only [AddressRecord.bytes,took_append_iff] at htook
      obtain ⟨b₁,h₁,b₂,h₂,b₃,h₃,h₄⟩ := htook
      refine ⟨_,b₁,⟨_,r.id_fits,h₁⟩,_,b₂,⟨_,rfl,h₂⟩,_,?_,_,b₃,⟨rfl,h₃⟩,_,b',⟨_,rfl,h₄⟩,?_⟩
      · rw [UInt8.ofNat_toNat]
        exact r.version
      · rw [UInt8.ofNat_toNat,UInt8.ofNat_toNat]
        rfl
  pos r := by
    rw [AddressRecord.bytes,length_append,length_append]
    exact Nat.lt_add_left _ (Nat.lt_add_right _ Nat.zero_lt_one)

theorem routeAdvertisement_reads :
    Reads routeAdvertisement RouteRecord.bytes RouteRecord.toRouteAdvertisement where
  iff b a b' := by
    simp only [routeAdvertisement,bind_eq_ok,oct_eq_ok,getByte_iff,getBytes_iff,addrLen_iff,
      Prod.exists]
    constructor
    · rintro ⟨_,b₁,⟨x,rfl,h₁⟩,len,hlen,start,b₂,⟨rfl,h₂⟩,stop,b₃,⟨hstop,h₃⟩,_,b₄,⟨y,rfl,h₄⟩,h⟩
      rw [UInt8.ofNat_toNat] at hlen
      cases h
      rw [UInt8.ofNat_toNat,UInt8.ofNat_toNat]
      refine ⟨⟨⟨x,start,stop,y⟩,hlen,hstop⟩,rfl,?_⟩
      simp only [RouteRecord.bytes,took_append_iff]
      exact ⟨b₁,h₁,b₂,h₂,b₃,h₃,h₄⟩
    · rintro ⟨r,rfl,htook⟩
      simp only [RouteRecord.bytes,took_append_iff] at htook
      obtain ⟨b₁,h₁,b₂,h₂,b₃,h₃,h₄⟩ := htook
      refine ⟨_,b₁,⟨_,rfl,h₁⟩,_,?_,_,b₂,⟨rfl,h₂⟩,_,b₃,⟨r.stop_length,h₃⟩,_,b',⟨_,rfl,h₄⟩,?_⟩
      · rw [UInt8.ofNat_toNat]
        exact r.version
      · rw [UInt8.ofNat_toNat,UInt8.ofNat_toNat]
        rfl
  pos r := by
    rw [RouteRecord.bytes,length_append]
    exact Nat.lt_add_right _ Nat.zero_lt_one

/-- A value is accepted exactly if it consists of records, which are returned in
order, and as many rounds as it has bytes are enough. -/
theorem records_exact (value : Bytes) :
    (∀ addresses, parseAddressAssign value=.ok addresses ↔
      ∃ records : List AddressRecord, value=records.flatMap AddressRecord.bytes ∧
        records.map AddressRecord.toAssignedAddress=addresses) ∧
    (∀ routes, parseRouteAdvertisement value=.ok routes ↔
      ∃ records : List RouteRecord, value=records.flatMap RouteRecord.bytes ∧
        records.map RouteRecord.toRouteAdvertisement=routes) ∧
    ∀ more, readEntries assignedAddress (value.length+more) (Octets.withSlice value)=
        parseAddressAssign value ∧
      readEntries routeAdvertisement (value.length+more) (Octets.withSlice value)=
        parseRouteAdvertisement value :=
  ⟨readEntries_iff assignedAddress_reads le_rfl,readEntries_iff routeAdvertisement_reads le_rfl,
    fun _ => ⟨readEntries_fuel assignedAddress_reads (Nat.le_add_right _ _) le_rfl,
      readEntries_fuel routeAdvertisement_reads (Nat.le_add_right _ _) le_rfl⟩⟩

end Records

/-- The capsule of a kind and its bytes. -/
def capsuleOf (kind : ℕ) (value : Bytes) : Except String Capsule :=
  if kind=CAPSULE_ADDRESS_ASSIGN then (parseAddressAssign value).map Capsule.addressAssign
  else if kind=CAPSULE_ADDRESS_REQUEST then .ok .addressRequest
  else if kind=CAPSULE_ROUTE_ADVERTISEMENT then
    (parseRouteAdvertisement value).map Capsule.routeAdvertisement
  else if kind=CAPSULE_DATAGRAM then .ok (.datagram value)
  else .ok (.unknown kind value)

/-- The bytes that have arrived and not been taken. -/
structure CapsuleParser where
  /-- Bytes from the first capsule that is not complete. -/
  buf : Bytes
  deriving DecidableEq

namespace CapsuleParser

/-- A parser before any byte has arrived. -/
def new : CapsuleParser := ⟨[]⟩

/-- Add bytes; a buffer that would become too long is emptied instead. -/
def push (p : CapsuleParser) (data : Bytes) : CapsuleParser :=
  if MAX_CAPSULE_BUF<p.buf.length+data.length then ⟨[]⟩ else ⟨p.buf++data⟩

/-- Take the first capsule, if it is complete. Its bytes are gone even when its
value turns out to be malformed. -/
def next (p : CapsuleParser) : Except String (Option Capsule) × CapsuleParser :=
  match (Octets.withSlice p.buf).getVarint with
  | none => (.ok none,p)
  | some (kind,b) =>
    match b.getVarint with
    | none => (.ok none,p)
    | some (len,b) =>
      if b.cap<len then (.ok none,p)
      else
        match b.getBytes len with
        | none => (.error "BufferTooShortError",p)
        | some (value,b) => ((capsuleOf kind value).map some,⟨p.buf.drop b.off⟩)

/-- One turn of the loop that takes capsules: it goes on after a capsule and
ends when none is complete or one is malformed. -/
def nextCapsule (buf : Bytes) : Option Capsule × Bytes :=
  match next ⟨buf⟩ with
  | (.ok c,p) => (c,p.buf)
  | (.error _,p) => (none,p.buf)

/-- Push a chunk and take every capsule that is complete. -/
def pushAndDrain (p : CapsuleParser) (data : Bytes) : List Capsule × CapsuleParser :=
  let p := p.push data
  let (capsules,buf) := drain nextCapsule p.buf.length p.buf
  (capsules,⟨buf⟩)

/-- Push chunks one after the other, taking the complete capsules each time. -/
def feed : CapsuleParser → List Bytes → List Capsule × CapsuleParser
  | p,[] => ([],p)
  | p,data::chunks =>
    let (capsules,p) := p.pushAndDrain data
    let (more,p) := feed p chunks
    (capsules++more,p)

/-- No push makes the buffer longer than allowed. -/
def PushesFit : CapsuleParser → List Bytes → Prop
  | _,[] => True
  | p,data::chunks =>
    p.buf.length+data.length≤MAX_CAPSULE_BUF ∧ PushesFit (p.pushAndDrain data).2 chunks

instance instDecidablePushesFit : (p : CapsuleParser) → (chunks : List Bytes) →
    Decidable (p.PushesFit chunks)
  | _,[] => inferInstanceAs (Decidable True)
  | p,data::chunks =>
    have := instDecidablePushesFit (p.pushAndDrain data).2 chunks
    inferInstanceAs (Decidable (_ ∧ _))

end CapsuleParser

/-- What the version bits and the length say about a packet. -/
def looksLikeIpPacket (data : Bytes) : Bool :=
  match data with
  | [] => false
  | first::_ => (first >>> 4 == 4 || first >>> 4 == 6) && 20≤data.length

/-- The packet behind a zero context id, if there is one and a packet follows,
else the payload itself if it is a packet. -/
def stripDatagramContext (payload : Bytes) : Option Bytes :=
  if payload.isEmpty then none
  else
    let behind :=
      match (Octets.withSlice payload).getVarint with
      | none => none
      | some (ctx,b) =>
        let inner := payload.drop (payload.length-b.cap)
        if ctx=CONNECT_IP_CONTEXT_ID ∧ looksLikeIpPacket inner then some inner else none
    match behind with
    | some inner => some inner
    | none => if looksLikeIpPacket payload then some payload else none

/-- The packet that a capsule delivers. -/
def Capsule.delivered : Capsule → Option Bytes
  | .datagram payload => stripDatagramContext payload
  | _ => none

/-- The sender reserves what the encoding takes. -/
theorem varintLenOf_eq {v : ℕ} (h : varintLen v=some len) : varintLenOf v=len := by
  unfold varintLen at h
  unfold varintLenOf
  split_ifs at h ⊢ <;> first | omega | exact Option.some.inj h

/-- The bytes of a datagram capsule. -/
def datagramBytes (payload : Bytes) : Bytes :=
  varintBytes CAPSULE_DATAGRAM 1 ++
    (varintBytes payload.length (varintLenOf payload.length)++payload)

/-- Writing a packet adds exactly its capsule to the buffer. -/
theorem appendDatagramCapsule_eq (h : payload.length≤MAX_VAR_INT) (out : Bytes) :
    appendDatagramCapsule out payload=some (out++datagramBytes payload) := by
  obtain ⟨len,hlen⟩ := varintLen_of_le h
  have hkind : varintLen CAPSULE_DATAGRAM=some 1 := rfl
  have hfill : capsuleLen CAPSULE_DATAGRAM payload=1+(len+payload.length) := by
    rw [capsuleLen,varintLenOf_eq hlen,varintLenOf_eq hkind,Nat.add_assoc]
  have hfirst := @putBytes_done [] (replicate (1+(len+payload.length)) 0)
    (varintBytes CAPSULE_DATAGRAM 1) (by simp [varintBytes_length])
  have hsecond := @putBytes_done (varintBytes CAPSULE_DATAGRAM 1)
    (replicate (len+payload.length) 0) (varintBytes payload.length len)
    (by simp [varintBytes_length])
  have hthird := @putBytes_done (varintBytes CAPSULE_DATAGRAM 1++varintBytes payload.length len)
    (replicate payload.length 0) payload (by simp)
  simp only [varintBytes_length,drop_replicate,Nat.add_sub_cancel_left,Nat.sub_self,
    replicate_zero,append_nil,nil_append,List.length_nil] at hfirst hsecond hthird
  unfold appendDatagramCapsule appendCapsule
  rw [hfill]
  dsimp only
  rw [putVarint_eq hkind,hfirst]
  dsimp only [Put.orKeep,Option.bind_some]
  rw [putVarint_eq hlen,hsecond]
  dsimp only [Put.orKeep,Option.bind_some]
  rw [hthird,datagramBytes,varintLenOf_eq hlen]
  simp

/-- A capsule as it may be sent: its kind and length in any of their encodings. -/
structure Frame where
  kind : ℕ
  /-- Length of the encoding of the kind. -/
  kindLen : ℕ
  value : Bytes
  /-- Length of the encoding of the length. -/
  valueLen : ℕ
  kind_fits : VarintFits kind kindLen
  value_fits : VarintFits value.length valueLen

namespace Frame

variable {f g : Frame} {buf rest rest' : Bytes}

/-- The bytes of a capsule. -/
def bytes (f : Frame) : Bytes :=
  varintBytes f.kind f.kindLen++(varintBytes f.value.length f.valueLen++f.value)

/-- What the parser makes of a capsule. -/
def capsule (f : Frame) : Except String Capsule := capsuleOf f.kind f.value

theorem bytes_pos (f : Frame) : 0<f.bytes.length := by
  have hpos : 0<f.kindLen := by
    rcases f.kind_fits with ⟨h,-⟩ | ⟨h,-⟩ | ⟨h,-⟩ | ⟨h,-⟩ <;> omega
  rw [bytes,length_append,varintBytes_length]
  omega

/-- A complete capsule is taken from the front of the buffer. -/
theorem next_bytes (f : Frame) (rest : Bytes) :
    CapsuleParser.next ⟨f.bytes++rest⟩=(f.capsule.map some,⟨rest⟩) := by
  have htook : (Octets.withSlice (f.bytes++rest)).Took f.bytes
      ((Octets.withSlice (f.bytes++rest)).skip f.bytes.length) := ⟨⟨rest,rfl⟩,rfl⟩
  have hoff : (f.bytes++rest).drop (0+f.bytes.length)=rest := by
    rw [Nat.zero_add,drop_left]
  obtain ⟨b₁,hkind,htook⟩ := took_append_iff.mp htook
  obtain ⟨b₂,hlen,hvalue⟩ := took_append_iff.mp htook
  have hroom := hvalue.cap
  rw [CapsuleParser.next,getVarint_iff.mpr ⟨_,f.kind_fits,hkind⟩]
  dsimp only
  rw [getVarint_iff.mpr ⟨_,f.value_fits,hlen⟩]
  dsimp only
  rw [if_neg (by omega),getBytes_iff.mpr ⟨rfl,hvalue⟩]
  dsimp only [Octets.skip,Octets.withSlice]
  rw [hoff]
  rfl

/-- The buffer begins with a complete capsule. -/
def Begins (buf : Bytes) : Prop := ∃ (f : Frame) (rest : Bytes), buf=f.bytes++rest

/-- Nothing is taken from a buffer that does not begin with a complete capsule. -/
theorem next_incomplete (h : ¬Begins buf) : CapsuleParser.next ⟨buf⟩=(.ok none,⟨buf⟩) := by
  unfold CapsuleParser.next
  split
  · rfl
  rename_i kind b₁ hkind
  split
  · rfl
  rename_i len b₂ hlen
  split
  · rfl
  rename_i hcap
  split
  · rename_i hnone
    rw [Octets.getBytes,if_neg hcap] at hnone
    cases hnone
  rename_i value b₃ hvalue
  obtain ⟨rfl,htookValue⟩ := getBytes_iff.mp hvalue
  obtain ⟨kindLen,hkindFits,htookKind⟩ := getVarint_iff.mp hkind
  obtain ⟨valueLen,hvalueFits,htookLen⟩ := getVarint_iff.mp hlen
  have hall := took_append_iff.mpr
    ⟨b₁,htookKind,took_append_iff.mpr ⟨b₂,htookLen,htookValue⟩⟩
  exact absurd ⟨⟨kind,kindLen,value,valueLen,hkindFits,hvalueFits⟩,_,hall.rest⟩ h

/-- The capsule at the front of a buffer is determined by the buffer. -/
theorem of_append_eq (h : f.bytes++rest=g.bytes++rest') : f.capsule=g.capsule ∧ rest=rest' := by
  have hnext := next_bytes f rest
  rw [h,next_bytes] at hnext
  obtain ⟨hcapsule,hrest⟩ := Prod.mk.inj hnext
  refine ⟨?_,(CapsuleParser.mk.inj hrest).symm⟩
  cases hf : f.capsule <;> cases hg : g.capsule <;> rw [hf,hg] at hcapsule <;> cases hcapsule <;> rfl

/-- The beginning of a capsule is not a complete one. -/
theorem not_begins_of_prefix (hp : buf <+: f.bytes) (hne : buf≠f.bytes) : ¬Begins buf := by
  rintro ⟨g,rest,rfl⟩
  obtain ⟨more,hmore⟩ := hp
  have hwhole : f.bytes++[]=g.bytes++(rest++more) := by
    rw [append_nil,←hmore,append_assoc]
  obtain ⟨rfl,rfl⟩ := List.append_eq_nil_iff.mp (of_append_eq hwhole).2.symm
  exact hne (by rw [←hmore,append_nil,append_nil])

end Frame

theorem datagram_fits : VarintFits CAPSULE_DATAGRAM 1 := by decide

/-- A datagram capsule as the sender writes it. -/
def datagramFrame (payload : Bytes) (h : payload.length≤MAX_VAR_INT) : Frame where
  kind := CAPSULE_DATAGRAM
  kindLen := 1
  value := payload
  valueLen := varintLenOf payload.length
  kind_fits := datagram_fits
  value_fits := by
    obtain ⟨len,hlen⟩ := varintLen_of_le h
    rw [varintLenOf_eq hlen]
    exact varintLen_fits hlen

/-- The datagram capsules as a frame code. -/
def datagramCode : FrameCode Capsule UInt8 where
  valid c := ∃ payload, c=.datagram payload ∧ payload.length≤MAX_VAR_INT
  encode
    | .datagram payload => datagramBytes payload
    | _ => []
  next := CapsuleParser.nextCapsule
  next_nil := rfl
  encode_ne_nil := by
    rintro _ ⟨payload,rfl,-⟩ h
    simp [datagramBytes,varintBytes,beBytes,tagFirst] at h
  next_encode := by
    rintro _ rest ⟨payload,rfl,h⟩
    change CapsuleParser.nextCapsule ((datagramFrame payload h).bytes++rest)=_
    rw [CapsuleParser.nextCapsule,Frame.next_bytes]
    rfl
  next_short := by
    rintro _ p ⟨payload,rfl,h⟩ hp hne
    have hincomplete : ¬Frame.Begins p :=
      Frame.not_begins_of_prefix (show p <+: (datagramFrame payload h).bytes from hp) hne
    rw [CapsuleParser.nextCapsule,Frame.next_incomplete hincomplete]

variable {p : CapsuleParser}

/-- Pushes that fit only append, so the parser is the receiver of the code. -/
theorem feed_eq_receive {chunks : List Bytes} (h : p.PushesFit chunks) :
    p.feed chunks=((receive datagramCode.next p.buf chunks).1,
      ⟨(receive datagramCode.next p.buf chunks).2⟩) := by
  induction chunks generalizing p with
  | nil => rfl
  | cons data chunks ih =>
    obtain ⟨hfit,hrest⟩ := h
    have hpush : p.push data=⟨p.buf++data⟩ := by
      rw [CapsuleParser.push,if_neg (by omega)]
    change ((p.pushAndDrain data).1++((p.pushAndDrain data).2.feed chunks).1,
      ((p.pushAndDrain data).2.feed chunks).2)=_
    rw [ih hrest]
    simp only [CapsuleParser.pushAndDrain,hpush,receive]
    rfl

theorem pushesFit_append {before after : List Bytes} (h : p.PushesFit (before++after)) :
    p.PushesFit before := by
  induction before generalizing p with
  | nil => trivial
  | cons data before ih => exact ⟨h.1,ih h.2⟩

/-- The bytes of an IPv4 packet without a truncated header, or of an IPv6 packet. -/
def IsIpPacket (data : Bytes) : Prop :=
  20≤data.length ∧ ∃ first∈data.head?, (first >>> 4=4 ∧ 5≤first &&& 0xf) ∨ first >>> 4=6

instance (data : Bytes) : Decidable (IsIpPacket data) := inferInstanceAs (Decidable (_ ∧ _))

/-- A packet as the peer may send it: bare, or behind a zero context id in any
of its encodings. -/
structure TunnelPayload where
  /-- Length of the encoding of the context id, if there is one. -/
  context : Option ℕ
  /-- The packet. -/
  packet : Bytes
  /-- The context id has an encoding of this length. -/
  context_fits : ∀ len∈context, VarintFits CONNECT_IP_CONTEXT_ID len
  /-- What is sent is an IP packet. -/
  packet_ip : IsIpPacket packet

namespace TunnelPayload

/-- The bytes of the payload. -/
def bytes (p : TunnelPayload) : Bytes :=
  (p.context.elim [] (varintBytes CONNECT_IP_CONTEXT_ID))++p.packet

end TunnelPayload

/-- The first byte of a packet and its length are what the receiver looks at. -/
theorem looksLikeIpPacket_of_isIpPacket (h : IsIpPacket data) : looksLikeIpPacket data=true := by
  obtain ⟨hlen,first,hfirst,hversion⟩ := h
  cases data with
  | nil => cases hfirst
  | cons x data =>
    cases hfirst
    rcases hversion with ⟨hv,-⟩ | hv <;> simp [looksLikeIpPacket,hv] <;> simpa using hlen

/-- The first byte of a packet announces a context id of two bytes and gives its
upper part a value other than zero. -/
theorem packet_first (x : UInt8) (h : (x >>> 4=4 ∧ 5≤x &&& 0xf) ∨ x >>> 4=6) :
    varintParseLen x=2 ∧ 64<x.toNat ∧ x.toNat<128 := by
  have hall : ∀ n<256, ((UInt8.ofNat n >>> 4=4 ∧ 5≤UInt8.ofNat n &&& 0xf) ∨
      UInt8.ofNat n >>> 4=6) → varintParseLen (UInt8.ofNat n)=2 ∧
        64<(UInt8.ofNat n).toNat ∧ (UInt8.ofNat n).toNat<128 := by
    decide +kernel
  have hx := hall x.toNat x.toNat_lt
  rw [UInt8.ofNat_toNat] at hx
  exact hx h

/-- No packet begins with a zero context id: its first byte announces two
bytes, and the six value bits of that byte are not all zero. -/
theorem getVarint_packet (h : IsIpPacket data) {ctx : ℕ} {b : Octets}
    (hget : (Octets.withSlice data).getVarint=some (ctx,b)) : ctx≠CONNECT_IP_CONTEXT_ID := by
  obtain ⟨hlen,first,hfirst,hversion⟩ := h
  match data with
  | [] => cases hfirst
  | [_] => simp at hlen
  | x::y::data =>
    obtain rfl : x=first := Option.some.inj hfirst
    obtain ⟨htwo,hlo,hhi⟩ := packet_first x hversion
    simp only [Octets.getVarint,Octets.rest,Octets.withSlice,drop_zero,htwo,Octets.cap,
      Octets.getU,beValue,Octets.skip,length_cons] at hget
    simp [varintMask] at hget
    rw [←hget.1,CONNECT_IP_CONTEXT_ID]
    have := Nat.and_two_pow_sub_one_eq_mod (x.toNat*256+y.toNat) 14
    have hy := y.toNat_lt
    norm_num at this
    omega

theorem isEmpty_of_isIpPacket (hip : IsIpPacket packet) (context : Bytes) :
    ¬(context++packet).isEmpty=true := by
  have hlen := hip.1
  rw [List.isEmpty_iff]
  intro hnil
  rw [(List.append_eq_nil_iff.mp hnil).2,List.length_nil] at hlen
  omega

/-- A bare packet is not shortened. -/
theorem stripDatagramContext_bare (hip : IsIpPacket packet) :
    stripDatagramContext packet=some packet := by
  have hlooks := looksLikeIpPacket_of_isIpPacket hip
  have hempty : ¬packet.isEmpty=true := isEmpty_of_isIpPacket hip []
  unfold stripDatagramContext
  rw [if_neg hempty]
  cases hget : (Octets.withSlice packet).getVarint with
  | none => simp [hlooks]
  | some read =>
    have hctx := getVarint_packet hip hget
    simp [hctx,hlooks]

/-- A zero context id is removed. -/
theorem stripDatagramContext_context (hip : IsIpPacket packet)
    (hfits : VarintFits CONNECT_IP_CONTEXT_ID len) :
    stripDatagramContext (varintBytes CONNECT_IP_CONTEXT_ID len++packet)=some packet := by
  have hlooks := looksLikeIpPacket_of_isIpPacket hip
  have hsize := varintBytes_length CONNECT_IP_CONTEXT_ID len
  have hget := @getVarint_varintBytes _ _ hfits
    (Octets.withSlice (varintBytes CONNECT_IP_CONTEXT_ID len++packet)) packet rfl
  have hcap : ((Octets.withSlice (varintBytes CONNECT_IP_CONTEXT_ID len++packet)).skip len).cap=
      packet.length := by
    simp [Octets.cap,Octets.skip,Octets.withSlice,hsize]
  have hinner : (varintBytes CONNECT_IP_CONTEXT_ID len++packet).drop len=packet := by
    rw [drop_append_of_le_length (by omega),drop_of_length_le (by omega),nil_append]
  unfold stripDatagramContext
  rw [if_neg (isEmpty_of_isIpPacket hip _),hget]
  dsimp only
  rw [hcap,length_append,hsize,Nat.add_sub_cancel,hinner,if_pos ⟨rfl,hlooks⟩]

/-- Stripping finds the packet, whether or not a context id stands before it. -/
theorem stripDatagramContext_bytes (p : TunnelPayload) :
    stripDatagramContext p.bytes=some p.packet := by
  obtain ⟨context,packet,hfits,hip⟩ := p
  cases context with
  | none => exact stripDatagramContext_bare hip
  | some len => exact stripDatagramContext_context hip (hfits len rfl)

/-- Write packets one after the other onto the end of a buffer. -/
def appendAll (out : Bytes) (payloads : List TunnelPayload) : Option Bytes :=
  payloads.foldlM (fun out p => appendDatagramCapsule out p.bytes) out

/-- The capsules of a list of packets. -/
def capsules (payloads : List TunnelPayload) : List Capsule :=
  payloads.map fun p => .datagram p.bytes

theorem delivered_capsules (payloads : List TunnelPayload) :
    (capsules payloads).map Capsule.delivered=payloads.map fun p => some p.packet := by
  rw [capsules,map_map]
  exact map_congr_left fun p _ => stripDatagramContext_bytes p

/-- Packets short enough for their length to be written. -/
def Encodable (payloads : List TunnelPayload) : Prop :=
  ∀ p∈payloads, p.bytes.length<2^62

variable {payloads : List TunnelPayload}

theorem Encodable.le (h : Encodable payloads) {p : TunnelPayload} (hp : p∈payloads) :
    p.bytes.length≤MAX_VAR_INT :=
  Nat.le_sub_one_of_lt (h p hp)

theorem Encodable.valid (h : Encodable payloads) : ∀ c∈capsules payloads, datagramCode.valid c := by
  intro c hc
  obtain ⟨p,hp,rfl⟩ := mem_map.mp hc
  exact ⟨p.bytes,rfl,h.le hp⟩

/-- A batch holds the capsules of its packets. -/
theorem appendAll_eq (h : Encodable payloads) (out : Bytes) :
    appendAll out payloads=some (out++datagramCode.encodeAll (capsules payloads)) := by
  induction payloads generalizing out with
  | nil => simp [appendAll,capsules]
  | cons p payloads ih =>
    have hrest := ih (fun q hq => h q (mem_cons_of_mem _ hq)) (out++datagramBytes p.bytes)
    unfold appendAll at hrest ⊢
    rw [foldlM_cons,appendDatagramCapsule_eq (h.le mem_cons_self)]
    simp only [Option.bind_eq_bind,Option.bind_some]
    rw [hrest,append_assoc]
    rfl

/-- All batches together hold the capsules of all packets. -/
theorem mapM_appendAll {batches : List (List TunnelPayload)} (h : Encodable batches.flatten) :
    ∃ buffers, batches.mapM (appendAll [])=some buffers ∧
      buffers.flatten=datagramCode.encodeAll (capsules batches.flatten) := by
  induction batches with
  | nil => exact ⟨[],rfl,rfl⟩
  | cons batch batches ih =>
    rw [flatten_cons] at h
    obtain ⟨buffers,hmap,hflat⟩ := ih fun p hp => h p (mem_append_right _ hp)
    have hbatch := appendAll_eq (fun p hp => h p (mem_append_left _ hp)) []
    refine ⟨datagramCode.encodeAll (capsules batch)::buffers,?_,?_⟩
    · rw [mapM_cons,hbatch,hmap]
      rfl
    · rw [flatten_cons,hflat,flatten_cons,capsules,capsules,capsules,map_append,
        FrameCode.encodeAll_append]

/-- The bytes pushed so far are the capsules of the packets already delivered
and, in the buffer, a proper beginning of the next capsule. -/
def DeliveredSoFar (payloads : List TunnelPayload) (pushed : List Bytes) : Prop :=
  ∃ done left whole, payloads=done++left ∧
    (CapsuleParser.new.feed pushed).1.map Capsule.delivered=done.map (fun p => some p.packet) ∧
    appendAll [] done=some whole ∧
    pushed.flatten=whole++(CapsuleParser.new.feed pushed).2.buf ∧
    match left with
    | [] => (CapsuleParser.new.feed pushed).2.buf=[]
    | p::_ => ∃ capsule, appendDatagramCapsule [] p.bytes=some capsule ∧
        (CapsuleParser.new.feed pushed).2.buf <+: capsule ∧
        (CapsuleParser.new.feed pushed).2.buf≠capsule

/-- What has been pushed of a stream of capsules is delivered as far as it is
complete. -/
theorem deliveredSoFar_of_stream (h : Encodable payloads) {pushed : List Bytes}
    (hfit : CapsuleParser.new.PushesFit pushed)
    (hs : pushed.flatten <+: datagramCode.encodeAll (capsules payloads)) :
    DeliveredSoFar payloads pushed := by
  have hstart : datagramCode.Incomplete (capsules payloads) CapsuleParser.new.buf := by
    cases payloads with
    | nil => rfl
    | cons p payloads =>
      have hne := datagramCode.encode_ne_nil _ (h.valid _ mem_cons_self)
      exact ⟨List.nil_prefix,fun heq => hne heq.symm⟩
  obtain ⟨taken,rest,tail,hsplit,hrun,hcells,htail⟩ :=
    datagramCode.receive_stream h.valid hstart hs
  obtain ⟨done,left,rfl,rfl,rfl⟩ := map_eq_append_iff.mp hsplit
  have hdone : Encodable done := fun p hp => h p (mem_append_left _ hp)
  have hfeed := feed_eq_receive hfit
  rw [hrun] at hfeed
  refine ⟨done,left,_,rfl,?_,appendAll_eq hdone [],?_,?_⟩
  · rw [hfeed]
    exact delivered_capsules done
  · rw [hfeed,nil_append]
    exact hcells
  · rw [hfeed]
    cases left with
    | nil => exact htail
    | cons p left =>
      have hle := h.le (mem_append_right _ mem_cons_self)
      exact ⟨_,appendDatagramCapsule_eq hle [],htail⟩

/-- Any batching of the packets has a stream, and any cutting of that stream
into pushes that fit delivers the packets in order; after every push the parser
holds exactly what is incomplete. -/
theorem capsules_round_trip {batches : List (List TunnelPayload)} (h : Encodable batches.flatten) :
    ∃ buffers, batches.mapM (appendAll [])=some buffers ∧
      ∀ chunks : List Bytes, chunks.flatten=buffers.flatten → CapsuleParser.new.PushesFit chunks →
        (CapsuleParser.new.feed chunks).1.map Capsule.delivered=
            batches.flatten.map (fun p => some p.packet) ∧
          ∀ pushed later, chunks=pushed++later → DeliveredSoFar batches.flatten pushed := by
  obtain ⟨buffers,hmap,hflat⟩ := mapM_appendAll h
  refine ⟨buffers,hmap,fun chunks hcut hfit => ⟨?_,?_⟩⟩
  · have hall := datagramCode.receive_all h.valid (hcut.trans hflat)
    have hfeed := feed_eq_receive hfit
    rw [CapsuleParser.new,hall] at hfeed
    rw [CapsuleParser.new,hfeed]
    exact delivered_capsules _
  · rintro pushed later rfl
    refine deliveredSoFar_of_stream h (pushesFit_append hfit) ?_
    rw [←hflat,←hcut,List.flatten_append]
    exact List.prefix_append _ _

/-- A bare IPv4 packet of twenty bytes. -/
def shortPacket : TunnelPayload :=
  ⟨none,0x45::List.replicate 19 7,by simp,by decide⟩

/-- An IPv6 packet behind a context id of two bytes. -/
def longPacket : TunnelPayload :=
  ⟨some 2,0x60::List.replicate 69 9,by decide,by decide⟩

/-- Two batches in three pushes, the second of which ends inside a length. -/
theorem capsules_round_trip_cut :
    (CapsuleParser.new.feed [[0,20,0x45],List.replicate 19 7++[0,0x40],
        [72,0x40,0,0x60]++List.replicate 69 9]).1.map Capsule.delivered=
      [some shortPacket.packet,some longPacket.packet] := by
  obtain ⟨buffers,hmap,hrun⟩ := @capsules_round_trip [[shortPacket],[longPacket]] (by
    intro p hp
    simp only [List.flatten_cons,List.flatten_nil,List.append_nil,List.singleton_append,
      List.mem_cons,List.not_mem_nil,or_false] at hp
    rcases hp with rfl | rfl <;> decide)
  have hbuffers : [[shortPacket],[longPacket]].mapM (appendAll [])=
      some [0::20::0x45::List.replicate 19 7,0::0x40::72::0x40::0::0x60::List.replicate 69 9] := by
    decide +kernel
  rw [hbuffers] at hmap
  cases hmap
  exact (hrun _ (by decide) (by decide +kernel)).1

end MsnGuard.MasqueCapsules
