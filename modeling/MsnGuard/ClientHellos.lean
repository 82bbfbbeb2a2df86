import MsnGuard.IpAddresses
import MsnGuard.OctetsVarint

/-!
# The server name in a TLS ClientHello

Three readers look for the server name of a ClientHello. One of the engine and one of the
application give the place of the host name in the buffer; the third gives the host name itself,
if it looks like one.
-/

namespace MsnGuard.ClientHellos

open RustText IpAddresses
open OctetsVarint (beBytes beValue)

/-- A loop over items of at least `room` bytes before `stop`. A turn gives the
result or the place of the next item. -/
def scan {β : Type} (room stop : ℕ) (turn : ℕ → β ⊕ ℕ) (done : β) : ℕ → ℕ → β
  | 0,_ => done
  | rounds+1,pos =>
    if pos+room ≤ stop then
      match turn pos with
      | .inl result => result
      | .inr next => scan room stop turn done rounds next
    else done

/-- Bytes of a buffer as a number, if they are there. -/
def numberAt (buf : Bytes) (pos n : ℕ) : Option ℕ :=
  if pos+n≤buf.length then some (beValue ((buf.drop pos).take n)) else none

/-- A part of a buffer, if it is there. -/
def slice (buf : Bytes) (first last : ℕ) : Option Bytes :=
  if first≤last ∧ last≤buf.length then some ((buf.drop first).take (last-first)) else none

section Fragmenting

/-- The first entry of a list of server names that begins at a place. -/
def hostEntry (buf : Bytes) (entry : ℕ) : Option (ℕ × ℕ) :=
  (numberAt buf entry 1).bind fun kind =>
    if kind≠0 then none
    else (numberAt buf (entry+1) 2).bind fun hostLen =>
      let host := entry+3
      if hostLen=0 ∨ buf.length<host+hostLen then none else some (host,host+hostLen)

/-- A turn over the extensions. -/
def hostTurn (buf : Bytes) (pos : ℕ) : Option (ℕ × ℕ) ⊕ ℕ :=
  match numberAt buf pos 2,numberAt buf (pos+2) 2 with
  | some kind,some len =>
    let body := pos+4
    if kind=0 then .inl (hostEntry buf (body+2)) else .inr (body+len)
  | _,_ => .inl none

/-- The place of the host name, for the split of the first write. -/
def sniHostRange (buf : Bytes) : Option (ℕ × ℕ) :=
  (buf[0]?).bind fun first =>
    if first≠0x16 then none
    else (buf[5]?).bind fun message =>
      if message≠0x01 then none
      else
        (numberAt buf 43 1).bind fun n =>
        let pos := 43+(1+n)
        (numberAt buf pos 2).bind fun n =>
        let pos := pos+(2+n)
        (numberAt buf pos 1).bind fun n =>
        let pos := pos+(1+n)
        (numberAt buf pos 2).bind fun n =>
        let extensionsEnd := pos+2+n
        scan 4 extensionsEnd (hostTurn buf) none extensionsEnd (pos+2)

end Fragmenting

section Sniffing

/-- The longest name. -/
def MAX_HOST_LEN : ℕ := 253

/-- Two bytes as a number. -/
def be16 (buf : Bytes) (pos : ℕ) : Option ℕ :=
  (buf[pos]?).bind fun hi => (buf[pos+1]?).map fun lo => hi.toNat*256+lo.toNat

/-- Three bytes as a number. -/
def be24 (buf : Bytes) (pos : ℕ) : Option ℕ :=
  (buf[pos]?).bind fun a => (buf[pos+1]?).bind fun b => (buf[pos+2]?).map fun c =>
    (a.toNat*256+b.toNat)*256+c.toNat

/-- Characters of which names are made. -/
def hostChar (c : Char) : Bool := c.isAlphanum || c == '-' || c == '.' || c == '_'

/-- The name in lower case, without white space around it and full stops behind
it, if it looks like a name of more than one label. -/
def plausibleHost (table : CaseTable) (raw : Bytes) : Option Text :=
  if raw=[] ∨ MAX_HOST_LEN<raw.length then none
  else (fromUtf8 raw).bind fun text =>
    let name := trimEndMatches '.' (trim text)
    if name=[] ∨ MAX_HOST_LEN<utf8Len name then none
    else if name.all hostChar=false ∨ '.' ∉ name then none
    else if (parseIpAddr name).isSome then none
    else some (toLowercase table name)

/-- A turn over a list of server names. -/
def nameTurn (table : CaseTable) (data : Bytes) (listEnd pos : ℕ) : Option Text ⊕ ℕ :=
  match data[pos]?,be16 data (pos+1) with
  | some kind,some len =>
    let start := pos+3
    let last := start+len
    if listEnd<last then .inl none
    else if kind=0 then .inl ((slice data start last).bind (plausibleHost table))
    else .inr last
  | _,_ => .inl none

/-- The first host name of a list of server names. -/
def firstServerName (table : CaseTable) (data : Bytes) : Option Text :=
  (be16 data 0).bind fun listLen =>
    let listEnd := min (2+listLen) data.length
    scan 3 listEnd (nameTurn table data listEnd) none listEnd 2

/-- A turn over the extensions. -/
def sniTurn (table : CaseTable) (hello : Bytes) (extensionsEnd pos : ℕ) : Option Text ⊕ ℕ :=
  match be16 hello pos,be16 hello (pos+2) with
  | some kind,some len =>
    let dataStart := pos+4
    let dataEnd := dataStart+len
    if extensionsEnd<dataEnd then .inl none
    else if kind=0 then .inl ((slice hello dataStart dataEnd).bind (firstServerName table))
    else .inr dataEnd
  | _,_ => .inl none

/-- The server name of a hello without its headers. -/
def helloSni (table : CaseTable) (hello : Bytes) : Option Text :=
  (hello[34]?).bind fun sessionLen =>
  let pos := 34+(1+sessionLen.toNat)
  (be16 hello pos).bind fun cipherLen =>
  let pos := pos+(2+cipherLen)
  (hello[pos]?).bind fun compressionLen =>
  let pos := pos+(1+compressionLen.toNat)
  (be16 hello pos).bind fun extensionsLen =>
  let pos := pos+2
  let extensionsEnd := min (pos+extensionsLen) hello.length
  scan 4 extensionsEnd (sniTurn table hello extensionsEnd) none extensionsEnd pos

/-- The server name of a hello. -/
def tlsSni (table : CaseTable) (buf : Bytes) : Option Text :=
  (buf[0]?).bind fun first =>
    if first≠0x16 then none
    else (be16 buf 3).bind fun recordLen =>
      (slice buf 5 (min (5+recordLen) buf.length)).bind fun body =>
        (body[0]?).bind fun message =>
          if message≠0x01 then none
          else (be24 body 1).bind fun helloLen =>
            (slice body 4 (min (4+helloLen) body.length)).bind (helloSni table)

end Sniffing

section Splitting

/-- A byte of an array; nothing is the failure of the program. -/
def u8 (b : Bytes) (i : ℕ) : Option ℕ := (b[i]?).map UInt8.toNat

/-- Two bytes of an array; nothing is the failure of the program. -/
def u16 (b : Bytes) (i j : ℕ) : Option ℕ :=
  (b[i]?).bind fun hi => (b[j]?).map fun lo => hi.toNat*256+lo.toNat

/-- The first entry of the server names in an extension. -/
def entryOffset (b : Bytes) (body extLen : ℕ) : Option (Option (ℕ × ℕ)) :=
  if extLen<2 then some none
  else (u16 b body (body+1)).bind fun listLen =>
    let list := body+2
    if body+extLen<list+listLen then some none
    else if listLen<3 then some none
    else (b[list]?).bind fun kind =>
      if kind≠0 then some none
      else (u16 b (list+1) (list+2)).bind fun nameLen =>
        let start := list+3
        let last := start+nameLen
        if list+listLen<last ∨ b.length<last then some none else some (some (start,last))

/-- A turn over the extensions. -/
def offsetTurn (b : Bytes) (extEnd curr : ℕ) : Option (Option (ℕ × ℕ)) ⊕ ℕ :=
  match u16 b curr (curr+1),u16 b (curr+2) (curr+3) with
  | some extType,some extLen =>
    let body := curr+4
    if extEnd<body+extLen then .inl (some none)
    else if extType=0 then .inl (entryOffset b body extLen)
    else .inr (body+extLen)
  | _,_ => .inl none

/-- The place of the host name. The outer nothing is a failure of the program. -/
def findSniOffset (b : Bytes) : Option (Option (ℕ × ℕ)) :=
  if b.length<44 then some none
  else (b[0]?).bind fun first =>
    if first≠0x16 then some none
    else (b[5]?).bind fun message =>
      if message≠0x01 then some none
      else
        let curr := 5+4+(2+32)
        if b.length≤curr then some none
        else (u8 b curr).bind fun sessionIdLen =>
          let curr := curr+(1+sessionIdLen)
          if b.length<curr+2 then some none
          else (u16 b curr (curr+1)).bind fun cipherSuitesLen =>
            let curr := curr+(2+cipherSuitesLen)
            if b.length≤curr then some none
            else (u8 b curr).bind fun compressionMethodsLen =>
              let curr := curr+(1+compressionMethodsLen)
              if b.length<curr+2 then some none
              else (u16 b curr (curr+1)).bind fun extensionsLen =>
                let extEnd := min (curr+2+extensionsLen) b.length
                scan 4 extEnd (offsetTurn b extEnd) (some none) extEnd (curr+2)

end Splitting

section Hellos

/-- A field with its length in front, in so many bytes. -/
def prefixed (width : ℕ) (bytes : Bytes) : Bytes := beBytes width bytes.length++bytes

/-- An extension: a list of server names that begins with a host name, or
something else. -/
inductive Extension where
  | serverName (host others : Bytes)
  | other (kind : ℕ) (data : Bytes)

/-- The type of an extension. -/
def Extension.kind : Extension → ℕ
  | .serverName _ _ => 0
  | .other kind _ => kind

/-- The list of server names in an extension: a host name, then other entries. -/
def nameList (host others : Bytes) : Bytes := 0::(prefixed 2 host++others)

/-- What an extension carries. -/
def Extension.data : Extension → Bytes
  | .serverName host others => prefixed 2 (nameList host others)
  | .other _ data => data

/-- An extension as it is sent. -/
def Extension.bytes (e : Extension) : Bytes := beBytes 2 e.kind++prefixed 2 e.data

/-- Lengths and types fit their fields, host names are not empty, and only server
names have the type of server names. -/
structure Extension.Valid (e : Extension) : Prop where
  kind : e.kind<65536
  data : e.data.length<65536
  host : ∀ host others, e=.serverName host others → host≠[]
  other : ∀ kind data, e=.other kind data → kind≠0

/-- The fields of a ClientHello. -/
structure HelloFields where
  /-- The version that the record names. -/
  recordVersion : Bytes
  /-- The version that the message names. -/
  version : Bytes
  random : Bytes
  sessionId : Bytes
  cipherSuites : Bytes
  compressionMethods : Bytes
  /-- The extensions, unless the message ends before them. -/
  extensions : Option (List Extension)

namespace HelloFields

/-- The extensions as they are sent. -/
def extensionBytes (h : HelloFields) : Bytes :=
  match h.extensions with
  | none => []
  | some exts => prefixed 2 (exts.flatMap Extension.bytes)

/-- The message without its header. -/
def hello (h : HelloFields) : Bytes :=
  h.version++h.random++prefixed 1 h.sessionId++prefixed 2 h.cipherSuites ++
    prefixed 1 h.compressionMethods++h.extensionBytes

/-- The whole record. -/
def bytes (h : HelloFields) : Bytes :=
  0x16::(h.recordVersion++prefixed 2 (0x01::prefixed 3 h.hello))

end HelloFields

/-- A well-formed ClientHello in one record. -/
structure ClientHello extends HelloFields where
  recordVersion_length : recordVersion.length=2
  version_length : version.length=2
  random_length : random.length=32
  sessionId_length : sessionId.length<256
  cipherSuites_length : cipherSuites.length<65536
  compressionMethods_length : compressionMethods.length<256
  extensions_valid : ∀ exts, extensions=some exts →
    (∀ e∈exts, e.Valid) ∧ (exts.flatMap Extension.bytes).length<65536
  record_length : toHelloFields.hello.length+4<65536

/-- The host name of the first list of server names, and its place, when the
extensions begin at the given one. -/
def findHost (pos : ℕ) : List Extension → Option (ℕ × Bytes)
  | [] => none
  | .serverName host _::_ => some (pos+9,host)
  | .other _ data::rest => findHost (pos+4+data.length) rest

/-- Where the extensions begin. -/
def HelloFields.extensionsStart (h : HelloFields) : ℕ :=
  49+h.sessionId.length+h.cipherSuites.length+h.compressionMethods.length

/-- The host name of a ClientHello and its place, if it has server names. -/
def ClientHello.host (h : ClientHello) : Option (ℕ × Bytes) :=
  h.extensions.bind (findHost h.extensionsStart)

end Hellos

end MsnGuard.ClientHellos
