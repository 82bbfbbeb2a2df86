import MsnGuard.RustText

/-!
# Internet addresses, their textual forms and networks

Addresses are bit vectors of their width. The textual readers follow the standard library. A
network is an address with a prefix length that cannot exceed the width.
-/

namespace MsnGuard.IpAddresses

open RustText List Nat

/-- An IPv4 address, the first octet in the highest bits. -/
abbrev Ipv4Addr := BitVec 32

/-- An IPv6 address, the first segment in the highest bits. -/
abbrev Ipv6Addr := BitVec 128

/-- An address of either family. -/
inductive IpAddr where
  | v4 (address : Ipv4Addr)
  | v6 (address : Ipv6Addr)
  deriving DecidableEq

/-- An address with a port. -/
structure SocketAddr where
  /-- The address. -/
  ip : IpAddr
  /-- The port. -/
  port : ℕ
  deriving DecidableEq

/-- One octet of an IPv4 address, counted from the first. -/
def octet (a : Ipv4Addr) (i : ℕ) : ℕ := a.toNat / 2^(8*(3-i)) % 256

/-- The address with the four given octets. -/
def ipv4OfOctets (a b c d : ℕ) : Ipv4Addr := BitVec.ofNat 32 (((a*256+b)*256+c)*256+d)

/-- One sixteen-bit segment of an IPv6 address, counted from the first. -/
def ipv6Segment (a : Ipv6Addr) (i : ℕ) : ℕ := a.toNat / 2^(16*(7-i)) % 65536

/-- The address whose segments are the given groups. -/
def ipv6OfGroups (groups : List ℕ) : Ipv6Addr :=
  BitVec.ofNat 128 (groups.foldl (fun acc g => acc*65536+g) 0)

/-- The IPv4-mapped IPv6 address, five zero segments and one of ones before it. -/
def toIpv6Mapped (a : Ipv4Addr) : Ipv6Addr := BitVec.ofNat 128 (0xffff*2^32+a.toNat)

/-- The value of a digit in the given radix. -/
def toDigit (radix : ℕ) (c : Char) : Option ℕ :=
  let n := c.toNat
  let value :=
    if 48≤n ∧ n≤57 then some (n-48)
    else if 97≤n ∧ n≤122 then some (n-87)
    else if 65≤n ∧ n≤90 then some (n-55)
    else none
  value.filter (·<radix)

/-- Is the character a digit of the radix? -/
def isDigit (radix : ℕ) (c : Char) : Bool := (toDigit radix c).isSome

/-- The number written by a run of digits. -/
def digitsValue (radix : ℕ) (digits : Text) : ℕ :=
  digits.foldl (fun acc c => acc*radix+(toDigit radix c).getD 0) 0

/-- Read a number of at least one and at most `maxDigits` digits below the
bound; a leading zero may be refused when more digits follow. -/
def readNumber (radix maxDigits bound : ℕ) (allowZeroPrefix : Bool) (s : Text) :
    Option (ℕ × Text) :=
  let digits := s.takeWhile (isDigit radix)
  if digits.length=0 ∨ maxDigits<digits.length then none
  else if !allowZeroPrefix && digits.head? == some '0' && decide (1<digits.length) then none
  else if digitsValue radix digits<bound then
    some (digitsValue radix digits,s.dropWhile (isDigit radix))
  else none

/-- Every item but the first is preceded by the separator. -/
def readSeparator {α : Type} (separator : Char) (index : ℕ)
    (inner : Text → Option (α × Text)) (s : Text) : Option (α × Text) :=
  if index=0 then inner s
  else match s with
    | [] => none
    | c::rest => if c=separator then inner rest else none

/-- Read the octet with the given index. -/
def readOctet (index : ℕ) (s : Text) : Option (ℕ × Text) :=
  readSeparator '.' index (readNumber 10 3 256 false) s

/-- Read four octets separated by full stops. -/
def readIpv4Addr (s : Text) : Option (Ipv4Addr × Text) :=
  (readOctet 0 s).bind fun (a,s) =>
  (readOctet 1 s).bind fun (b,s) =>
  (readOctet 2 s).bind fun (c,s) =>
  (readOctet 3 s).map fun (d,s) => (ipv4OfOctets a b c d,s)

/-- Read up to `left` of `limit` groups separated by colons. An IPv4 address
takes the place of two groups and ends the reading. -/
def readGroups (limit : ℕ) : ℕ → Text → List ℕ × Bool × Text
  | 0,s => ([],false,s)
  | left+1,s =>
    let index := limit-(left+1)
    let embedded := if 1≤left then readSeparator ':' index readIpv4Addr s else none
    match embedded with
    | some (v4,rest) => ([v4.toNat/65536,v4.toNat%65536],true,rest)
    | none =>
      match readSeparator ':' index (readNumber 16 4 65536 true) s with
      | none => ([],false,s)
      | some (group,rest) =>
        let (groups,embedded,rest) := readGroups limit left rest
        (group::groups,embedded,rest)

/-- Read eight groups, or fewer around one run of zero groups. -/
def readIpv6Addr (s : Text) : Option (Ipv6Addr × Text) :=
  let (head,headIpv4,rest) := readGroups 8 8 s
  if head.length=8 then some (ipv6OfGroups head,rest)
  else if headIpv4 then none
  else match rest with
    | ':' :: ':' :: rest =>
      let limit := 8-(head.length+1)
      let (tail,_,rest) := readGroups limit limit rest
      some (ipv6OfGroups (head++List.replicate (8-head.length-tail.length) 0++tail),rest)
    | _ => none

/-- Read an address of either family from the front of a text. -/
def readIpAddr (s : Text) : Option (IpAddr × Text) :=
  match readIpv4Addr s with
  | some (a,rest) => some (.v4 a,rest)
  | none => (readIpv6Addr s).map fun (a,rest) => (.v6 a,rest)

/-- Parse an address; the whole text must be read. -/
def parseIpAddr (s : Text) : Option IpAddr :=
  match readIpAddr s with
  | some (a,[]) => some a
  | _ => none

/-- Read a colon and a port. -/
def readPort : Text → Option (ℕ × Text)
  | ':' :: s => readNumber 10 s.length 65536 true s
  | _ => none

/-- The text after the scope of an address, if it has one. -/
def skipScope : Text → Text
  | '%' :: s => (readNumber 10 s.length (2^32) true s).elim ('%' :: s) Prod.snd
  | s => s

/-- Read an IPv6 address in brackets. -/
def readBracketed : Text → Option (IpAddr × Text)
  | '[' :: s => (readIpv6Addr s).bind fun (a,s) =>
    match skipScope s with
    | ']' :: s => some (.v6 a,s)
    | _ => none
  | _ => none

/-- Parse an address with a port. The scope of an IPv6 address is not kept. -/
def parseSocketAddr (s : Text) : Option SocketAddr :=
  let read (address : Option (IpAddr × Text)) : Option (SocketAddr × Text) :=
    address.bind fun (ip,s) => (readPort s).map fun (port,s) => (⟨ip,port⟩,s)
  match (read ((readIpv4Addr s).map fun (a,s) => (.v4 a,s))).or (read (readBracketed s)) with
  | some (a,[]) => some a
  | _ => none

/-- The dotted decimal text of an IPv4 address. -/
def ipv4Text (a : Ipv4Addr) : Text :=
  Nat.toDigits 10 (octet a 0) ++ '.' :: (Nat.toDigits 10 (octet a 1) ++ '.' ::
    (Nat.toDigits 10 (octet a 2) ++ '.' :: Nat.toDigits 10 (octet a 3)))

theorem octet_lt (a : Ipv4Addr) (i : ℕ) : octet a i<256 := mod_lt _ (by decide)

/-- The four octets determine the address. -/
theorem ipv4OfOctets_octets (a : Ipv4Addr) :
    ipv4OfOctets (octet a 0) (octet a 1) (octet a 2) (octet a 3)=a := by
  apply BitVec.eq_of_toNat_eq
  have ha := a.isLt
  simp only [ipv4OfOctets,octet,BitVec.toNat_ofNat]
  omega

/-- Every number below 256 has between one and three decimal digits, no
superfluous leading zero, and is read back from them. -/
theorem decimal_octet : ∀ n<256, (toDigits 10 n).all (isDigit 10)=true ∧
    0<(toDigits 10 n).length ∧ (toDigits 10 n).length≤3 ∧
    ((toDigits 10 n).head?=some '0' → (toDigits 10 n).length=1) ∧
    digitsValue 10 (toDigits 10 n)=n := by
  decide +kernel

/-- A run of digits is cut off at the first character that is none. -/
theorem takeWhile_digits {radix : ℕ} {digits rest : Text}
    (hd : digits.all (isDigit radix)=true) (hr : (rest.takeWhile (isDigit radix))=[]) :
    (digits++rest).takeWhile (isDigit radix)=digits ∧
      (digits++rest).dropWhile (isDigit radix)=rest := by
  have hrest : rest.dropWhile (isDigit radix)=rest := by
    cases rest with
    | nil => rfl
    | cons c rest =>
      by_cases hc : isDigit radix c=true
      · simp [hc] at hr
      · simp [hc]
  rw [takeWhile_append_of_pos (all_eq_true.mp hd),
    dropWhile_append_of_pos (all_eq_true.mp hd),hr,hrest]
  exact ⟨append_nil _,rfl⟩

/-- The decimal text of an octet is read back, up to the next non-digit. -/
theorem readNumber_decimal {n : ℕ} (hn : n<256) {rest : Text}
    (hr : rest.takeWhile (isDigit 10)=[]) :
    readNumber 10 3 256 false (toDigits 10 n++rest)=some (n,rest) := by
  obtain ⟨hd,hpos,hle,hzero,hv⟩ := decimal_octet n hn
  obtain ⟨htake,hdrop⟩ := takeWhile_digits hd hr
  unfold readNumber
  rw [htake,hdrop]
  dsimp only
  rw [hv,if_neg (by omega),if_neg,if_pos hn]
  intro hlead
  simp only [Bool.not_false,Bool.true_and,Bool.and_eq_true,beq_iff_eq,decide_eq_true_eq] at hlead
  have := hzero hlead.1
  omega

/-- A full stop ends a run of decimal digits. -/
theorem takeWhile_stop (rest : Text) : ('.' :: rest).takeWhile (isDigit 10)=[] := rfl

/-- The dotted text of an address is read back as that address. -/
theorem readIpv4Addr_text (a : Ipv4Addr) : readIpv4Addr (ipv4Text a)=some (a,[]) := by
  have h0 := readNumber_decimal (octet_lt a 0) (takeWhile_stop (toDigits 10 (octet a 1) ++
    '.' :: (toDigits 10 (octet a 2) ++ '.' :: toDigits 10 (octet a 3))))
  have h1 := readNumber_decimal (octet_lt a 1) (takeWhile_stop (toDigits 10 (octet a 2) ++
    '.' :: toDigits 10 (octet a 3)))
  have h2 := readNumber_decimal (octet_lt a 2) (takeWhile_stop (toDigits 10 (octet a 3)))
  have h3 := @readNumber_decimal _ (octet_lt a 3) [] rfl
  rw [append_nil] at h3
  simp only [readIpv4Addr,ipv4Text,readOctet,readSeparator,if_true,h0,h1,h2,h3,
    Option.bind_some,Option.map_some,one_ne_zero,OfNat.ofNat_ne_zero,if_false,
    ipv4OfOctets_octets]

/-- A dotted decimal name denotes its IPv4 address. -/
theorem parseIpAddr_text (a : Ipv4Addr) : parseIpAddr (ipv4Text a)=some (.v4 a) := by
  simp only [parseIpAddr,readIpAddr,readIpv4Addr_text]

/-- A network of addresses of `w` bits. -/
structure Net (w : ℕ) where
  /-- The address as written, host bits included. -/
  addr : BitVec w
  /-- Number of leading bits that the members share. -/
  prefixLen : Fin (w+1)
  deriving DecidableEq

/-- The bits that vary inside the network. -/
def Net.hostmask {w : ℕ} (n : Net w) : BitVec w := BitVec.allOnes w >>> n.prefixLen.val

/-- The lowest address of the network. -/
def Net.network {w : ℕ} (n : Net w) : BitVec w := n.addr &&& ~~~n.hostmask

/-- The highest address of the network. -/
def Net.broadcast {w : ℕ} (n : Net w) : BitVec w := n.addr ||| n.hostmask

/-- Membership is the interval test between the two ends. -/
def Net.contains {w : ℕ} (n : Net w) (a : BitVec w) : Bool :=
  decide (n.network≤a) && decide (a≤n.broadcast)

/-- A network of either family. -/
inductive IpNet where
  | v4 (net : Net 32)
  | v6 (net : Net 128)
  deriving DecidableEq

/-- An address lies only in networks of its own family. -/
def IpNet.contains : IpNet → IpAddr → Bool
  | .v4 n,.v4 a => n.contains a
  | .v6 n,.v6 a => n.contains a
  | _,_ => false

/-- The network that holds one address. -/
def IpNet.ofAddr : IpAddr → IpNet
  | .v4 a => .v4 ⟨a,⟨32,by decide⟩⟩
  | .v6 a => .v6 ⟨a,⟨128,by decide⟩⟩

end MsnGuard.IpAddresses
