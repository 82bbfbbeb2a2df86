import MsnGuard.OctetsVarint
import MsnGuard.SocksConnect

/-!
# Datagrams of the SOCKS5 protocol

A datagram that passes a SOCKS5 relay carries the far address in front of its payload. The
server reads and answers in this form; the client side of an upstream proxy writes and reads the
same form.
-/

namespace MsnGuard.SocksDatagrams

open RustText IpAddresses SocksConnect List
open OctetsVarint (beBytes beValue beBytes_length beValue_beBytes)

/-- Address type of a name. -/
def ATYP_DOMAIN : UInt8 := 0x03

/-- An address that stands for an IPv4 address is taken for that address. -/
def toIpv4Mapped (a : Ipv6Addr) : Option Ipv4Addr :=
  if a.toNat / 2 ^ 32=0xffff then some (BitVec.ofNat 32 a.toNat) else none

/-- The IPv4 address behind a mapped IPv6 address; other addresses are kept. -/
def normalizeIp : IpAddr → IpAddr
  | .v4 a => .v4 a
  | .v6 a =>
    match toIpv4Mapped a with
    | some v4 => .v4 v4
    | none => .v6 a

/-- An address of this machine itself. -/
def isLoopback : IpAddr → Bool
  | .v4 a => octet a 0 == 127
  | .v6 a => a == 1

/-- The address that stands for no particular one. -/
def isUnspecified : IpAddr → Bool
  | .v4 a => a == 0
  | .v6 a => a == 0

/-- Type, address and port. -/
def encodeAddress (target : SocketAddr) : Bytes :=
  (match target.ip with
    | .v4 a => ATYP_V4::beBytes 4 a.toNat
    | .v6 a => ATYP_V6::beBytes 16 a.toNat)++beBytes 2 target.port

/-- What stands before the payload of a datagram. -/
def encodeUdpHeader (target : SocketAddr) : Bytes := [0x00,0x00,0x00]++encodeAddress target

/-- A datagram for the client, with the address it comes from. -/
def buildUdpReply (src : SocketAddr) (data : Bytes) : Bytes :=
  let pkt : Bytes := [0x00,0x00,0x00]
  let pkt := match src.ip with
    | .v4 a => pkt++ATYP_V4::beBytes 4 a.toNat
    | .v6 a => pkt++ATYP_V6::beBytes 16 a.toNat
  pkt++beBytes 2 src.port++data

/-- The address after its type, and the bytes behind it. -/
def readTarget (atyp : UInt8) (rest : Bytes) : Option (Target × Bytes) :=
  if atyp=ATYP_V4 then
    if rest.length<4 then none
    else some (.ip (.v4 (BitVec.ofNat 32 (beValue (rest.take 4)))),rest.drop 4)
  else if atyp=ATYP_V6 then
    if rest.length<16 then none
    else some (.ip (.v6 (BitVec.ofNat 128 (beValue (rest.take 16)))),rest.drop 16)
  else if atyp=ATYP_DOMAIN then
    match rest with
    | [] => none
    | len::rest =>
      if rest.length<len.toNat then none
      else some (.domain (fromUtf8Lossy (rest.take len.toNat)),rest.drop len.toNat)
  else none

/-- The bytes behind the reserved ones and the fragment number. -/
def unfragmented : Bytes → Option (UInt8 × Bytes)
  | _::_::frag::atyp::rest => if frag=0 then some (atyp,rest) else none
  | _ => none

/-- A datagram of a client: its destination, port and payload. -/
def parseUdpRequest (buf : Bytes) : Option (Target × ℕ × Bytes) :=
  (unfragmented buf).bind fun (atyp,rest) =>
  (readTarget atyp rest).bind fun (target,rest) =>
  match rest with
  | hi::lo::payload => some (target,hi.toNat*256+lo.toNat,payload)
  | _ => none

/-- The far address of a datagram of a relay, and where its payload begins. A
name is only taken when it is an address in text form. -/
def decodeUdpHeader (buf : Bytes) : Option (SocketAddr × ℕ) :=
  (unfragmented buf).bind fun (atyp,_) =>
  if atyp=ATYP_V4 then
    if buf.length<10 then none
    else some (⟨.v4 (BitVec.ofNat 32 (beValue ((buf.drop 4).take 4))),
      beValue ((buf.drop 8).take 2)⟩,10)
  else if atyp=ATYP_V6 then
    if buf.length<22 then none
    else some (⟨.v6 (BitVec.ofNat 128 (beValue ((buf.drop 4).take 16))),
      beValue ((buf.drop 20).take 2)⟩,22)
  else if atyp=ATYP_DOMAIN then
    (buf[4]?).bind fun length =>
    let last := 5+length.toNat
    if buf.length<last+2 then none
    else
      (fromUtf8 ((buf.drop 5).take length.toNat)).bind fun name =>
      (parseIpAddr name).map fun ip => (⟨ip,beValue ((buf.drop last).take 2)⟩,last+2)
  else none

theorem beValue_port {port : ℕ} (h : port<65536) :
    (UInt8.ofNat (port / 256 ^ 1)).toNat*256+(UInt8.ofNat (port / 256 ^ 0)).toNat=port := by
  simp only [pow_one,pow_zero,Nat.div_one,UInt8.toNat_ofNat']
  omega

/-- An address is read back from its bytes. -/
theorem ofNat_beValue {w n : ℕ} (h : 256 ^ n=2 ^ w) (a : BitVec w) :
    BitVec.ofNat w (beValue (beBytes n a.toNat))=a := by
  rw [beValue_beBytes,h,Nat.mod_eq_of_lt a.isLt,BitVec.ofNat_toNat,BitVec.setWidth_eq]

/-- The address and what follows are read back from an encoded address. -/
theorem readTarget_encode (ip : IpAddr) (rest : Bytes) :
    ∃ atyp tail, (match ip with
        | .v4 a => ATYP_V4::beBytes 4 a.toNat
        | .v6 a => ATYP_V6::beBytes 16 a.toNat)++rest=atyp::tail ∧
      readTarget atyp tail=some (.ip ip,rest) := by
  cases ip with
  | v4 a =>
    have hlen : (beBytes 4 a.toNat).length=4 := beBytes_length 4 a.toNat
    refine ⟨ATYP_V4,beBytes 4 a.toNat++rest,rfl,?_⟩
    rw [readTarget.eq_def,if_pos rfl,if_neg (by simp [hlen]),take_left' hlen,
      drop_left' hlen,ofNat_beValue (by decide)]
  | v6 a =>
    have hlen : (beBytes 16 a.toNat).length=16 := beBytes_length 16 a.toNat
    refine ⟨ATYP_V6,beBytes 16 a.toNat++rest,rfl,?_⟩
    rw [readTarget.eq_def,if_neg (by decide),if_pos rfl,if_neg (by simp [hlen]),
      take_left' hlen,drop_left' hlen,ofNat_beValue (by decide)]

/-- What is sent in the form of a relayed datagram is read back. -/
theorem parseUdpRequest_header {target : SocketAddr} (hport : target.port<65536)
    (payload : Bytes) :
    parseUdpRequest (encodeUdpHeader target++payload)=some (.ip target.ip,target.port,payload) := by
  obtain ⟨atyp,tail,hbytes,hread⟩ := readTarget_encode target.ip (beBytes 2 target.port++payload)
  have hshape : encodeUdpHeader target++payload=0x00::0x00::0x00::atyp::tail := by
    rw [encodeUdpHeader,encodeAddress,append_assoc,append_assoc,hbytes]
    rfl
  have hport2 : beBytes 2 target.port++payload=
      UInt8.ofNat (target.port / 256 ^ 1)::UInt8.ofNat (target.port / 256 ^ 0)::payload := rfl
  rw [hport2] at hread
  simp only [parseUdpRequest,hshape,unfragmented,if_true,Option.bind_some,hread,beValue_port hport]

end MsnGuard.SocksDatagrams
