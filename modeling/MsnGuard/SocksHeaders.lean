import MsnGuard.SmartDnsResolver

/-!
# The headers of SOCKS5 datagrams

Two writers and three readers of the same header, in the server, in the client side of an
upstream proxy and in the application.
-/

namespace MsnGuard.SocksHeaders

open RustText IpAddresses SocksConnect SocksDatagrams List Option
open OctetsVarint (beBytes beValue beBytes_length beValue_beBytes)

/-- A datagram as the application reads it. -/
structure Udp where
  address : Bytes
  port : ℕ
  payload : Bytes

/-- The reader of the application. -/
def parseUdp (datagram : Bytes) : Option Udp :=
  if datagram.length<10 ∨ datagram.take 3≠[0,0,0] then none
  else match (datagram.getD 3 0).toNat with
    | 1 => some ⟨(datagram.drop 4).take 4,beValue ((datagram.drop 8).take 2),datagram.drop 10⟩
    | 4 =>
      if datagram.length<22 then none
      else some ⟨(datagram.drop 4).take 16,beValue ((datagram.drop 20).take 2),datagram.drop 22⟩
    | _ => none

/-- The bytes of an address. -/
def octets : IpAddr → Bytes
  | .v4 a => beBytes 4 a.toNat
  | .v6 a => beBytes 16 a.toNat

/-- The length of the header that the type of the address implies. -/
def headerLen : Bytes → Option ℕ
  | _::_::_::atyp::rest =>
    if atyp=ATYP_V4 then some 10
    else if atyp=ATYP_V6 then some 22
    else if atyp=ATYP_DOMAIN then rest.head?.map fun length => 7+length.toNat
    else none
  | _ => none

/-- The resolver looks only at the payload. -/
theorem parseUdp_payload (datagram : Bytes) :
    (parseUdp datagram).map Udp.payload=SmartDnsResolver.parseUdp datagram := by
  unfold parseUdp SmartDnsResolver.parseUdp
  split
  · rfl
  generalize (datagram.getD 3 0).toNat=atyp
  split <;> first
    | rfl
    | split <;> first
      | rfl
      | simp_all

section Written

variable (a : SocketAddr) (payload : Bytes)

theorem buildUdpReply_eq : buildUdpReply a payload=encodeUdpHeader a++payload := by
  unfold buildUdpReply encodeUdpHeader encodeAddress
  cases a.ip <;> simp only [append_assoc]

/-- The parts of a datagram, by the length of the address. -/
theorem parts {address buf : Bytes} {m port : ℕ} {atyp : UInt8} (hlength : address.length=m)
    (hbuf : buf=0::0::0::atyp::(address++(beBytes 2 port++payload)))
    (hport : port<65536) :
    unfragmented buf=some (atyp,address++(beBytes 2 port++payload)) ∧
      (buf.drop 4).take m=address ∧ beValue ((buf.drop (4+m)).take 2)=port ∧
      buf.drop (6+m)=payload ∧ buf.length=6+m+payload.length := by
  have htwo := beBytes_length 2 port
  have hbehind : buf.drop 4=address++(beBytes 2 port++payload) := by rw [hbuf]; rfl
  have hlast : buf.drop (4+m)=beBytes 2 port++payload := by
    rw [←drop_drop,hbehind,drop_left' hlength]
  refine ⟨by rw [hbuf]; rfl,by rw [hbehind,take_left' hlength],?_,?_,?_⟩
  · rw [hlast,take_left' htwo,beValue_beBytes,Nat.mod_eq_of_lt (show port<256 ^ 2 from hport)]
  · rw [show 6+m=4+m+2 by omega,←drop_drop,hlast,drop_left' htwo]
  · rw [hbuf]
    simp only [length_cons,length_append,hlength,htwo]
    omega

theorem readers_written (hport : a.port<65536) :
    decodeUdpHeader (encodeUdpHeader a++payload)=some (a,(encodeUdpHeader a).length) ∧
      parseUdp (encodeUdpHeader a++payload)=some ⟨octets a.ip,a.port,payload⟩ := by
  obtain ⟨ip,port⟩ := a
  cases ip with
  | v4 ip =>
    have hbuf : encodeUdpHeader ⟨.v4 ip,port⟩++payload=
        0::0::0::ATYP_V4::(beBytes 4 ip.toNat++(beBytes 2 port++payload)) := by
      rw [encodeUdpHeader,encodeAddress,append_assoc,append_assoc]
      rfl
    obtain ⟨hfront,haddress,hvalue,htail,hlength⟩ :=
      parts payload (beBytes_length 4 _) hbuf hport
    constructor
    · rw [decodeUdpHeader,hfront,bind_some]
      dsimp only
      rw [if_pos rfl,if_neg (by omega),haddress,hvalue,ofNat_beValue (by decide)]
      rfl
    · rw [parseUdp,if_neg (not_or.mpr ⟨by omega,by rw [hbuf]; exact not_not.mpr rfl⟩)]
      rw [show (encodeUdpHeader ⟨.v4 ip,port⟩++payload).getD 3 0=1 by rw [hbuf]; rfl]
      rw [haddress,hvalue,htail]
      rfl
  | v6 ip =>
    have hbuf : encodeUdpHeader ⟨.v6 ip,port⟩++payload=
        0::0::0::ATYP_V6::(beBytes 16 ip.toNat++(beBytes 2 port++payload)) := by
      rw [encodeUdpHeader,encodeAddress,append_assoc,append_assoc]
      rfl
    obtain ⟨hfront,haddress,hvalue,htail,hlength⟩ :=
      parts payload (beBytes_length 16 _) hbuf hport
    constructor
    · rw [decodeUdpHeader,hfront,bind_some]
      dsimp only
      rw [if_neg (by decide),if_pos rfl,if_neg (by omega),haddress,hvalue,ofNat_beValue (by decide)]
      rfl
    · rw [parseUdp,if_neg (not_or.mpr ⟨by omega,by rw [hbuf]; exact not_not.mpr rfl⟩)]
      rw [show (encodeUdpHeader ⟨.v6 ip,port⟩++payload).getD 3 0=4 by rw [hbuf]; rfl]
      rw [if_neg (by omega),haddress,hvalue,htail]
      rfl

end Written

section Read

variable {buf : Bytes}

theorem unfragmented_eq {atyp : UInt8} {rest : Bytes} (h : unfragmented buf=some (atyp,rest)) :
    ∃ x y, buf=x::y::0::atyp::rest := by
  unfold unfragmented at h
  split at h
  · split_ifs at h with hfrag
    cases h
    exact ⟨_,_,by rw [hfrag]⟩
  · cases h

/-- What is left behind an address, by its type. -/
theorem readTarget_place {atyp : UInt8} {rest tail : Bytes} {target : Target} (x y z : UInt8)
    (h : readTarget atyp rest=some (target,tail)) :
    ∃ n, n≤rest.length ∧ tail=rest.drop n ∧ headerLen (x::y::z::atyp::rest)=some (6+n) := by
  unfold readTarget at h
  split at h
  · rename_i htype
    split_ifs at h
    cases h
    exact ⟨4,by omega,rfl,if_pos htype⟩
  split at h
  · rename_i htype
    split_ifs at h
    cases h
    subst htype
    exact ⟨16,by omega,rfl,rfl⟩
  split_ifs at h with htype
  subst htype
  split at h
  · cases h
  · rename_i len behind
    split_ifs at h
    cases h
    refine ⟨len.toNat+1,by rw [length_cons]; omega,rfl,?_⟩
    rw [show 6+(len.toNat+1)=7+len.toNat by omega]
    rfl

/-- The server takes the payload from behind the header. -/
theorem parseUdpRequest_suffix {target : Target} {port : ℕ} {payload : Bytes}
    (h : parseUdpRequest buf=some (target,port,payload)) :
    ∃ n, headerLen buf=some n ∧ n≤buf.length ∧ payload=buf.drop n := by
  obtain ⟨⟨atyp,rest⟩,hfront,hbehind⟩ := bind_eq_some_iff.mp h
  obtain ⟨⟨target',tail⟩,hread,hlast⟩ := bind_eq_some_iff.mp hbehind
  obtain ⟨x,y,rfl⟩ := unfragmented_eq hfront
  obtain ⟨n,hn,htail,hheader⟩ := readTarget_place x y 0 hread
  match tail,htail,hlast with
  | hi::lo::behind,htail,hlast =>
    cases hlast
    have hlength := congrArg length htail
    rw [length_drop,length_cons,length_cons] at hlength
    refine ⟨6+n,hheader,by simp only [length_cons]; omega,?_⟩
    rw [show 6+n=n+2+4 by omega]
    change payload=rest.drop (n+2)
    rw [←drop_drop,←htail]
    rfl

theorem decodeUdpHeader_bound {a : SocketAddr} {n : ℕ} (h : decodeUdpHeader buf=some (a,n)) :
    headerLen buf=some n ∧ n≤buf.length := by
  obtain ⟨⟨atyp,rest⟩,hfront,h⟩ := bind_eq_some_iff.mp h
  obtain ⟨x,y,rfl⟩ := unfragmented_eq hfront
  dsimp only at h
  split at h
  · rename_i htype
    split_ifs at h
    cases h
    exact ⟨if_pos htype,by omega⟩
  split at h
  · rename_i htype
    split_ifs at h
    cases h
    subst htype
    exact ⟨rfl,by omega⟩
  split_ifs at h with htype
  obtain ⟨length,hlength,h⟩ := bind_eq_some_iff.mp h
  split_ifs at h
  obtain ⟨name,-,h⟩ := bind_eq_some_iff.mp h
  obtain ⟨ip,-,h⟩ := map_eq_some_iff.mp h
  cases h
  have hhead : rest.head?=some length := by
    rw [head?_eq_getElem?]
    exact hlength
  subst htype
  rw [headerLen,hhead]
  refine ⟨?_,by omega⟩
  change some (7+length.toNat)=some (5+length.toNat+2)
  congr 1
  omega

theorem parseUdp_suffix {u : Udp} (h : parseUdp buf=some u) :
    ∃ n, headerLen buf=some n ∧ n≤buf.length ∧ u.payload=buf.drop n := by
  unfold parseUdp at h
  split at h
  · cases h
  rename_i hshort
  rw [not_or,not_lt] at hshort
  match buf,hshort with
  | x::y::z::atyp::rest,hshort =>
    have htype : ∀ k, atyp.toNat=k → atyp=UInt8.ofNat k := by
      intro k hk
      rw [←hk,UInt8.ofNat_toNat]
    split at h
    · rename_i hone
      cases h
      obtain rfl := htype 1 hone
      exact ⟨10,rfl,hshort.1,rfl⟩
    · rename_i hfour
      split_ifs at h
      cases h
      obtain rfl := htype 4 hfour
      exact ⟨22,rfl,by omega,rfl⟩
    · cases h
  | [],hshort | [_],hshort | [_,_],hshort | [_,_,_],hshort =>
    simp only [length_cons,length_nil] at hshort
    omega

/-- Both writers write the same datagram and all readers read it back; on any
bytes a reader that takes them takes its payload from behind the header. -/
theorem codecs_agree (a : SocketAddr) (payload buf : Bytes) (hport : a.port<65536) :
    (encodeUdpHeader a++payload=buildUdpReply a payload ∧
      parseUdpRequest (buildUdpReply a payload)=some (.ip a.ip,a.port,payload) ∧
      decodeUdpHeader (buildUdpReply a payload)=some (a,(encodeUdpHeader a).length) ∧
      (buildUdpReply a payload).drop (encodeUdpHeader a).length=payload ∧
      parseUdp (buildUdpReply a payload)=some ⟨octets a.ip,a.port,payload⟩) ∧
    (∀ target port payload, parseUdpRequest buf=some (target,port,payload) →
      ∃ n, headerLen buf=some n ∧ n≤buf.length ∧ payload=buf.drop n) ∧
    (∀ a n, decodeUdpHeader buf=some (a,n) → headerLen buf=some n ∧ n≤buf.length) ∧
    ∀ u, parseUdp buf=some u → ∃ n, headerLen buf=some n ∧ n≤buf.length ∧ u.payload=buf.drop n := by
  obtain ⟨hdecode,hparse⟩ := readers_written a payload hport
  rw [buildUdpReply_eq]
  exact ⟨⟨rfl,parseUdpRequest_header hport payload,hdecode,List.drop_left,hparse⟩,
    fun _ _ _ => parseUdpRequest_suffix,fun _ _ => decodeUdpHeader_bound,
    fun _ => parseUdp_suffix⟩

/-- The address of a server for names, with one byte of payload. -/
theorem codecs_agree_sample :
    parseUdpRequest (buildUdpReply ⟨.v4 (ipv4OfOctets 1 1 1 1),53⟩ [7])=
      some (.ip (.v4 (ipv4OfOctets 1 1 1 1)),53,[7]) :=
  (codecs_agree ⟨.v4 (ipv4OfOctets 1 1 1 1),53⟩ [7] [] (by decide)).1.2.1

end Read

end MsnGuard.SocksHeaders
