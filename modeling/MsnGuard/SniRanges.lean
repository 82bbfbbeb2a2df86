import Mathlib
import MsnGuard.ClientHellos

/-!
# The readers of server names agree

On every well-formed ClientHello the two readers of places give the place of the host name, and
the third one judges exactly the bytes at that place. On arbitrary bytes no reader looks outside
of its buffer.
-/

namespace MsnGuard.SniRanges

open RustText IpAddresses ClientHellos List Option Nat
open OctetsVarint (beBytes beBytes_length beValue_beBytes)

section Loops

variable {β : Type} {room stop : ℕ} {turn : ℕ → β ⊕ ℕ} {done : β}

/-- What holds of every result of a turn holds of the result of the loop. -/
theorem scan_result (P : β → Prop) (hdone : P done)
    (hturn : ∀ pos r, pos+room ≤ stop → turn pos=.inl r → P r) (rounds pos : ℕ) :
    P (scan room stop turn done rounds pos) := by
  induction rounds generalizing pos with
  | zero => exact hdone
  | succ rounds ih =>
    rw [scan]
    split
    · rename_i hroom
      split
      · rename_i r hr
        exact hturn pos r hroom hr
      · exact ih _
    · exact hdone

end Loops

section Places

variable {buf bytes more : Bytes} {pos n : ℕ}

/-- These bytes stand at a place of the buffer. -/
def At (buf : Bytes) (pos : ℕ) (bytes : Bytes) : Prop := bytes <+: buf.drop pos

theorem at_append :
    At buf pos (bytes++more) ↔ At buf pos bytes ∧ At buf (pos+bytes.length) more := by
  unfold At
  rw [←drop_drop]
  constructor
  · rintro ⟨tail,htail⟩
    rw [←htail,append_assoc,drop_left]
    exact ⟨prefix_append _ _,prefix_append _ _⟩
  · rintro ⟨⟨tail,htail⟩,hmore⟩
    rw [←htail,drop_left] at hmore
    rw [←htail]
    exact (prefix_append_right_inj _).mpr hmore

theorem at_singleton {x : UInt8} : At buf pos [x] ↔ buf[pos]?=some x := by
  rw [At,←head?_drop]
  cases buf.drop pos with
  | nil => simp
  | cons y tail => simp [eq_comm]

theorem at_cons {x : UInt8} : At buf pos (x::bytes) ↔ buf[pos]?=some x ∧ At buf (pos+1) bytes := by
  rw [←singleton_append,at_append,at_singleton,length_singleton]

/-- A whole buffer stands at its beginning. -/
theorem at_zero (buf : Bytes) : At buf 0 buf := prefix_rfl

theorem At.le (h : At buf pos bytes) (hpos : 0<bytes.length) : pos+bytes.length≤buf.length := by
  have hlength := h.length_le
  rw [length_drop] at hlength
  omega

theorem slice_at (h : At buf pos bytes) (hle : pos+bytes.length≤buf.length) :
    slice buf pos (pos+bytes.length)=some bytes := by
  rw [slice,if_pos ⟨Nat.le_add_right _ _,hle⟩,Nat.add_sub_cancel_left,←prefix_iff_eq_take.mp h]

theorem numberAt_at {w : ℕ} (h : At buf pos (beBytes (w+1) n)) (hn : n<256^(w+1)) :
    numberAt buf pos (w+1)=some n := by
  have hlength := beBytes_length (w+1) n
  have hle := h.le (by omega)
  have htake := prefix_iff_eq_take.mp h
  rw [hlength] at hle htake
  rw [numberAt,if_pos hle,←htake,beValue_beBytes,Nat.mod_eq_of_lt hn]

theorem byte_at (h : At buf pos (beBytes 1 n)) (hn : n<256) :
    ∃ b : UInt8, buf[pos]?=some b ∧ b.toNat=n := by
  refine ⟨_,at_singleton.mp h,?_⟩
  rw [pow_zero,Nat.div_one,UInt8.toNat_ofNat',Nat.mod_eq_of_lt hn]

theorem be16_at (h : At buf pos (beBytes 2 n)) (hn : n<65536) : be16 buf pos=some n := by
  obtain ⟨hhigh,hlow⟩ := at_cons.mp h
  rw [be16,hhigh,at_singleton.mp hlow]
  simp only [bind_some,map_some,UInt8.toNat_ofNat',some.injEq]
  omega

theorem be24_at (h : At buf pos (beBytes 3 n)) (hn : n<16777216) : be24 buf pos=some n := by
  obtain ⟨hhigh,hrest⟩ := at_cons.mp h
  obtain ⟨hmiddle,hlow⟩ := at_cons.mp hrest
  rw [be24,hhigh,hmiddle,at_singleton.mp hlow]
  simp only [bind_some,map_some,UInt8.toNat_ofNat',some.injEq]
  omega

theorem prefixed_length (w : ℕ) (bytes : Bytes) : (prefixed w bytes).length=w+bytes.length := by
  rw [prefixed,length_append,beBytes_length]

/-- A field with its length in front. -/
theorem at_prefixed {w : ℕ} : At buf pos (prefixed w bytes) ↔
    At buf pos (beBytes w bytes.length) ∧ At buf (pos+w) bytes := by
  rw [prefixed,at_append,beBytes_length]

end Places

section Walks

theorem bytes_length (e : Extension) : e.bytes.length=4+e.data.length := by
  rw [Extension.bytes,length_append,beBytes_length,prefixed_length]
  omega

/-- The loop over the extensions of a hello, for a reader that moves over other
extensions and stops at server names: it gives what was found at the first of them. -/
theorem scan_extensions {β : Type} {stop : ℕ} {turn : ℕ → β ⊕ ℕ} {done : β} {buf : Bytes}
    (found : ℕ → Bytes → β)
    (hother : ∀ pos kind data, At buf pos (Extension.other kind data).bytes →
      (Extension.other kind data).Valid → pos+4+data.length ≤ stop →
      turn pos=.inr (pos+4+data.length))
    (hname : ∀ pos host others, At buf pos (Extension.serverName host others).bytes →
      (Extension.serverName host others).Valid →
      pos+4+(Extension.serverName host others).data.length ≤ stop →
      turn pos=.inl (found (pos+9) host))
    (exts : List Extension) (hvalid : ∀ e∈exts, e.Valid) {pos : ℕ}
    (hat : At buf pos (exts.flatMap Extension.bytes))
    (hstop : stop=pos+(exts.flatMap Extension.bytes).length) {rounds : ℕ}
    (hrounds : exts.length≤rounds) :
    scan 4 stop turn done rounds pos=match findHost pos exts with
      | none => done
      | some (pos,host) => found pos host := by
  induction exts generalizing pos rounds with
  | nil =>
    cases rounds with
    | zero => rfl
    | succ rounds =>
      have hend : ¬pos+4 ≤ stop := by
        rw [hstop]
        simp
      simp only [scan,hend,if_false,findHost]
  | cons e exts ih =>
    have he := hvalid e mem_cons_self
    have hlength := bytes_length e
    rw [flatMap_cons,at_append] at hat
    rw [flatMap_cons,length_append] at hstop
    cases rounds with
    | zero => cases hrounds
    | succ rounds =>
      rw [scan,if_pos (by omega)]
      cases e with
      | serverName host others =>
        rw [hname pos host others hat.1 he (by omega)]
        rfl
      | other kind data =>
        rw [Extension.data] at hlength
        rw [hlength,←add_assoc] at hat
        rw [hother pos kind data hat.1 he (by omega)]
        exact ih (fun e he => hvalid e (mem_cons_of_mem _ he)) hat.2 (by omega)
          (le_of_succ_le_succ hrounds)

/-- The host that is found does not depend on the place where the extensions begin. -/
theorem findHost_host (exts : List Extension) (pos pos' : ℕ) :
    (findHost pos exts).map Prod.snd=(findHost pos' exts).map Prod.snd := by
  induction exts generalizing pos pos' with
  | nil => rfl
  | cons e exts ih =>
    cases e with
    | serverName host others => rfl
    | other kind data => exact ih _ _

/-- Nothing is found only if there are no server names. -/
theorem findHost_none_iff {exts : List Extension} (hvalid : ∀ e∈exts, e.Valid) (pos : ℕ) :
    findHost pos exts=none ↔ ∀ e∈exts, e.kind≠0 := by
  induction exts generalizing pos with
  | nil => exact ⟨fun _ _ he => absurd he not_mem_nil,fun _ => rfl⟩
  | cons e exts ih =>
    rw [forall_mem_cons]
    cases e with
    | serverName host others => exact ⟨nofun,fun h => absurd rfl h.1⟩
    | other kind data =>
      have hkind := (hvalid _ mem_cons_self).other kind data rfl
      rw [findHost,ih (fun e he => hvalid e (mem_cons_of_mem _ he))]
      exact ⟨fun h => ⟨hkind,h⟩,And.right⟩

/-- There are at most as many extensions as bytes. -/
theorem length_le_bytes (exts : List Extension) :
    exts.length≤(exts.flatMap Extension.bytes).length := by
  induction exts with
  | nil => exact zero_le _
  | cons e exts ih =>
    have hlength := bytes_length e
    rw [flatMap_cons,length_append,length_cons]
    omega

end Walks

section Turns

variable {buf host others data : Bytes} {pos stop kind : ℕ}

/-- The parts of an extension. -/
theorem extension_at {e : Extension} (h : At buf pos e.bytes) :
    At buf pos (beBytes 2 e.kind) ∧ At buf (pos+2) (beBytes 2 e.data.length) ∧
      At buf (pos+4) e.data := by
  rw [Extension.bytes,at_append,at_prefixed] at h
  exact h

theorem nameList_length (host others : Bytes) :
    (nameList host others).length=3+host.length+others.length := by
  simp only [nameList,length_cons,length_append,prefixed_length]
  omega

theorem nameData_length (host others : Bytes) :
    (prefixed 2 (nameList host others)).length=5+host.length+others.length := by
  rw [prefixed_length,nameList_length]
  omega

/-- The parts of a list of server names: its length, the kind of its first entry,
the length of the host name and the host name. -/
theorem names_at (h : At buf pos (prefixed 2 (nameList host others))) :
    At buf pos (beBytes 2 (3+host.length+others.length)) ∧ buf[pos+2]?=some 0 ∧
      At buf (pos+3) (beBytes 2 host.length) ∧ At buf (pos+5) host ∧
      pos+5+host.length+others.length≤buf.length := by
  have hle := h.le (by rw [nameData_length]; omega)
  rw [nameData_length] at hle
  rw [at_prefixed,nameList_length,nameList,at_cons,at_append,at_prefixed] at h
  exact ⟨h.1,h.2.1,h.2.2.1.1,h.2.2.1.2,by omega⟩

/-- The lengths in a list of server names fit their fields. -/
theorem names_bound (he : (Extension.serverName host others).Valid) :
    5+host.length+others.length<65536 := by
  have hdata := he.data
  rw [Extension.data,nameData_length] at hdata
  exact hdata

/-- The host that is found stands at its place. -/
theorem findHost_at (exts : List Extension) (hat : At buf pos (exts.flatMap Extension.bytes))
    {place : ℕ} (hfound : findHost pos exts=some (place,host)) :
    slice buf place (place+host.length)=some host := by
  induction exts generalizing pos with
  | nil => cases hfound
  | cons e exts ih =>
    rw [flatMap_cons,at_append,bytes_length,←add_assoc] at hat
    cases e with
    | serverName name others =>
      cases hfound
      obtain ⟨-,-,-,hname,hle⟩ := names_at (extension_at hat.1).2.2
      exact slice_at hname (by omega)
    | other kind data => exact ih hat.2 hfound

theorem hostTurn_other (h : At buf pos (Extension.other kind data).bytes)
    (he : (Extension.other kind data).Valid) : hostTurn buf pos=.inr (pos+4+data.length) := by
  obtain ⟨hkind,hlen,-⟩ := extension_at h
  rw [hostTurn,numberAt_at hkind he.kind,numberAt_at hlen he.data]
  exact if_neg (he.other kind data rfl)

theorem hostTurn_name (h : At buf pos (Extension.serverName host others).bytes)
    (he : (Extension.serverName host others).Valid) :
    hostTurn buf pos=.inl (some (pos+9,pos+9+host.length)) := by
  obtain ⟨hkind,hlen,hdata⟩ := extension_at h
  obtain ⟨-,hentry,hhost,-,hle⟩ := names_at hdata
  have hpos : 0<host.length := length_pos_iff.mpr (he.host host others rfl)
  have hsize := names_bound he
  have hzero : At buf (pos+4+2) (beBytes 1 0) := at_singleton.mpr hentry
  rw [hostTurn,numberAt_at hkind he.kind,numberAt_at hlen he.data]
  change Sum.inl (hostEntry buf (pos+4+2))=_
  rw [hostEntry,numberAt_at hzero (by decide)]
  simp only [bind_some,ne_eq,not_true_eq_false,if_false]
  rw [numberAt_at hhost (by omega),bind_some]
  rw [if_neg (by omega)]

theorem offsetTurn_other (h : At buf pos (Extension.other kind data).bytes)
    (he : (Extension.other kind data).Valid) (hstop : pos+4+data.length ≤ stop) :
    offsetTurn buf stop pos=.inr (pos+4+data.length) := by
  obtain ⟨hkind,hlen,-⟩ := extension_at h
  have htype : u16 buf pos (pos+1)=some kind := be16_at hkind he.kind
  have hlength : u16 buf (pos+2) (pos+3)=some data.length := be16_at hlen he.data
  rw [offsetTurn,htype,hlength]
  dsimp only
  rw [if_neg (by omega),if_neg (he.other kind data rfl)]

theorem offsetTurn_name (h : At buf pos (Extension.serverName host others).bytes)
    (he : (Extension.serverName host others).Valid)
    (hstop : pos+4+(Extension.serverName host others).data.length ≤ stop) :
    offsetTurn buf stop pos=.inl (some (some (pos+9,pos+9+host.length))) := by
  obtain ⟨hkind,hlen,hdata⟩ := extension_at h
  obtain ⟨hlist,hentry,hhost,-,hle⟩ := names_at hdata
  have hsize := names_bound he
  have htype : u16 buf pos (pos+1)=some 0 := be16_at hkind he.kind
  have hlength : u16 buf (pos+2) (pos+3)=some _ := be16_at hlen he.data
  have hlistLen : u16 buf (pos+4) (pos+4+1)=some _ := be16_at hlist (by omega)
  have hnameLen : u16 buf (pos+4+2+1) (pos+4+2+2)=some _ := be16_at hhost (by omega)
  rw [Extension.data,nameData_length] at hstop hlength
  rw [offsetTurn,htype,hlength]
  dsimp only
  rw [if_neg (by omega),if_pos rfl,entryOffset,if_neg (by omega),hlistLen,bind_some]
  rw [if_neg (by omega),if_neg (by omega),hentry,bind_some,if_neg (by decide),hnameLen,
    bind_some,if_neg (by omega)]

/-- The first name of a list that begins with a host name is that name. -/
theorem firstServerName_written (table : CaseTable) (hsize : 5+host.length+others.length<65536) :
    firstServerName table (prefixed 2 (nameList host others))=plausibleHost table host := by
  obtain ⟨hlist,hentry,hhost,hname,hle⟩ :=
    names_at (at_zero (prefixed 2 (nameList host others)))
  have hrounds : min (2+(3+host.length+others.length)) (5+host.length+others.length)=
      (4+host.length+others.length)+1 := by omega
  rw [firstServerName,be16_at hlist (by omega),bind_some]
  rw [nameData_length,hrounds,scan,if_pos (by omega),nameTurn,hentry,be16_at hhost (by omega)]
  dsimp only
  rw [if_neg (by omega),if_pos rfl,slice_at hname (by omega),bind_some]

theorem sniTurn_other (table : CaseTable) (h : At buf pos (Extension.other kind data).bytes)
    (he : (Extension.other kind data).Valid) (hstop : pos+4+data.length ≤ stop) :
    sniTurn table buf stop pos=.inr (pos+4+data.length) := by
  obtain ⟨hkind,hlen,-⟩ := extension_at h
  rw [sniTurn,be16_at hkind he.kind,be16_at hlen he.data]
  dsimp only [Extension.kind,Extension.data]
  rw [if_neg (by omega),if_neg (he.other kind data rfl)]

theorem sniTurn_name (table : CaseTable) (h : At buf pos (Extension.serverName host others).bytes)
    (he : (Extension.serverName host others).Valid)
    (hstop : pos+4+(Extension.serverName host others).data.length ≤ stop) :
    sniTurn table buf stop pos=.inl (plausibleHost table host) := by
  obtain ⟨hkind,hlen,hdata⟩ := extension_at h
  have hle := hdata.le (by rw [Extension.data,nameData_length]; omega)
  rw [sniTurn,be16_at hkind he.kind,be16_at hlen he.data]
  dsimp only [Extension.kind]
  rw [if_neg (by omega),if_pos rfl,slice_at hdata hle,bind_some,Extension.data,
    firstServerName_written table (names_bound he)]

end Turns

section Readers

variable (h : ClientHello) {buf : Bytes} {pos : ℕ}

/-- The parts of a record. -/
theorem record_at : (h.bytes)[5]?=some 0x01 ∧ At h.bytes 3 (beBytes 2 (4+h.hello.length)) ∧
    At h.bytes 5 (0x01::prefixed 3 h.hello) ∧ At h.bytes 9 h.hello ∧
    h.bytes.length=9+h.hello.length := by
  have hmessage : (0x01::prefixed 3 h.hello).length=4+h.hello.length := by
    rw [length_cons,prefixed_length]
    omega
  have hat : At h.bytes 0 (0x16::(h.recordVersion++prefixed 2 (0x01::prefixed 3 h.hello))) :=
    at_zero _
  rw [at_cons,at_append,at_prefixed,h.recordVersion_length,hmessage] at hat
  obtain ⟨-,-,hlen,hbody⟩ := hat
  have hparts := hbody
  rw [at_cons,at_prefixed] at hparts
  refine ⟨hparts.1,hlen,hbody,hparts.2.2,?_⟩
  rw [HelloFields.bytes,length_cons,length_append,prefixed_length,
    h.recordVersion_length]
  omega

/-- The lengths before the extensions are read where their fields begin. -/
theorem hello_at (hat : At buf pos h.hello) (hlength : buf.length=pos+h.hello.length) :
    At buf (pos+34) (beBytes 1 h.sessionId.length) ∧
      At buf (pos+34+(1+h.sessionId.length)) (beBytes 2 h.cipherSuites.length) ∧
      At buf (pos+34+(1+h.sessionId.length)+(2+h.cipherSuites.length))
        (beBytes 1 h.compressionMethods.length) ∧
      At buf (pos+34+(1+h.sessionId.length)+(2+h.cipherSuites.length)+
        (1+h.compressionMethods.length)) h.extensionBytes ∧
      buf.length=pos+34+(1+h.sessionId.length)+(2+h.cipherSuites.length)+
        (1+h.compressionMethods.length)+h.extensionBytes.length := by
  have hsplit : h.hello=(h.version++h.random)++(prefixed 1 h.sessionId ++
      (prefixed 2 h.cipherSuites++(prefixed 1 h.compressionMethods++h.extensionBytes))) := by
    simp only [HelloFields.hello,append_assoc]
  have hfront : (h.version++h.random).length=34 := by
    rw [length_append,h.version_length,h.random_length]
  rw [hsplit] at hat hlength
  obtain ⟨-,hat⟩ := at_append.mp hat
  rw [hfront] at hat
  simp only [at_append,at_prefixed,prefixed_length] at hat
  obtain ⟨hsession,hcipher,hcompression,hextensions⟩ := hat
  refine ⟨hsession.1,hcipher.1,hcompression.1,hextensions,?_⟩
  rw [hlength]
  simp only [length_append,prefixed_length,h.version_length,h.random_length]
  omega

/-- The parts of the extensions. -/
theorem extensions_at {exts : List Extension} (hexts : h.extensions=some exts)
    (hat : At buf pos h.extensionBytes) :
    At buf pos (beBytes 2 (exts.flatMap Extension.bytes).length) ∧
      At buf (pos+2) (exts.flatMap Extension.bytes) ∧
      h.extensionBytes.length=2+(exts.flatMap Extension.bytes).length ∧
      exts.length≤(exts.flatMap Extension.bytes).length ∧ (∀ e∈exts, e.Valid) ∧
      (exts.flatMap Extension.bytes).length<65536 := by
  have hbytes : h.extensionBytes=prefixed 2 (exts.flatMap Extension.bytes) := by
    rw [HelloFields.extensionBytes,hexts]
  have hvalid := h.extensions_valid exts hexts
  rw [hbytes,at_prefixed] at hat
  exact ⟨hat.1,hat.2,by rw [hbytes,prefixed_length],length_le_bytes exts,hvalid⟩

theorem extensionBytes_none (hnone : h.extensions=none) : h.extensionBytes.length=0 := by
  rw [HelloFields.extensionBytes,hnone]
  rfl

/-- The place that both readers give. -/
def place (found : Option (ℕ × Bytes)) : Option (ℕ × ℕ) :=
  found.map fun (pos,host) => (pos,pos+host.length)

theorem extensionsStart_eq : 9+34+(1+h.sessionId.length)+(2+h.cipherSuites.length)+
    (1+h.compressionMethods.length)+2=h.extensionsStart := by
  rw [HelloFields.extensionsStart]
  omega

/-- The engine gives the place of the host name. -/
theorem sniHostRange_bytes : sniHostRange h.bytes=place h.host := by
  obtain ⟨hmessage,-,-,hat,hlength⟩ := record_at h
  obtain ⟨hsession,hcipher,hcompression,hextensions,hsize⟩ := hello_at h hat hlength
  rw [sniHostRange,show (h.bytes)[0]?=some 0x16 from rfl,bind_some,if_neg (by decide),
    hmessage,bind_some,if_neg (by decide)]
  rw [numberAt_at hsession h.sessionId_length,bind_some]
  dsimp only
  rw [numberAt_at hcipher h.cipherSuites_length,bind_some,
    numberAt_at hcompression h.compressionMethods_length,bind_some]
  cases hexts : h.extensions with
  | none =>
    have hempty := extensionBytes_none h hexts
    rw [numberAt,if_neg (by omega),ClientHello.host,hexts]
    rfl
  | some exts =>
    obtain ⟨hlen,hbody,-,hrounds,hvalid,hbound⟩ := extensions_at h hexts hextensions
    rw [numberAt_at hlen hbound,bind_some,
      scan_extensions (fun pos host => some (pos,pos+host.length))
      (fun _ _ _ hat he _ => hostTurn_other hat he) (fun _ _ _ hat he _ => hostTurn_name hat he)
      exts hvalid hbody rfl (by omega),extensionsStart_eq,ClientHello.host,hexts,
      bind_some]
    cases findHost h.extensionsStart exts <;> rfl

/-- The application gives the place of the host name. -/
theorem findSniOffset_bytes : findSniOffset h.bytes=some (place h.host) := by
  obtain ⟨hmessage,-,-,hat,hlength⟩ := record_at h
  obtain ⟨hsession,hcipher,hcompression,hextensions,hsize⟩ := hello_at h hat hlength
  obtain ⟨session,hsessionByte,hsessionLen⟩ := byte_at hsession h.sessionId_length
  obtain ⟨compression,hcompressionByte,hcompressionLen⟩ :=
    byte_at hcompression h.compressionMethods_length
  have hcipherLen : u16 h.bytes _ _=some _ := be16_at hcipher h.cipherSuites_length
  rw [findSniOffset,if_neg (by omega),show (h.bytes)[0]?=some 0x16 from rfl,bind_some,
    if_neg (by decide),hmessage,bind_some,if_neg (by decide)]
  rw [if_neg (by omega),u8,hsessionByte,map_some,bind_some,hsessionLen,
    if_neg (by omega),hcipherLen,bind_some,if_neg (by omega),u8,hcompressionByte,
    map_some,bind_some,hcompressionLen]
  cases hexts : h.extensions with
  | none =>
    have hempty := extensionBytes_none h hexts
    rw [if_pos (by omega),ClientHello.host,hexts]
    rfl
  | some exts =>
    obtain ⟨hlen,hbody,htotal,hrounds,hvalid,hbound⟩ := extensions_at h hexts hextensions
    have hextLen : u16 h.bytes _ _=some _ := be16_at hlen hbound
    rw [if_neg (by omega),hextLen,bind_some,min_eq_left (by omega),
      scan_extensions (fun pos host => some (some (pos,pos+host.length)))
      (fun _ _ _ => offsetTurn_other)
      (fun _ _ _ => offsetTurn_name)
      exts hvalid hbody rfl (by omega),extensionsStart_eq,ClientHello.host,hexts,
      bind_some]
    cases findHost h.extensionsStart exts <;> rfl

/-- The third reader finds the message in the record. -/
theorem tlsSni_hello (table : CaseTable) : tlsSni table h.bytes=helloSni table h.hello := by
  obtain ⟨-,hrecord,hbody,-,hlength⟩ := record_at h
  have hsize := h.record_length
  have hmessage : (0x01::prefixed 3 h.hello).length=4+h.hello.length := by
    rw [length_cons,prefixed_length]
    omega
  have hslice := slice_at hbody (by rw [hlength]; omega)
  have hat := at_zero (0x01::prefixed 3 h.hello)
  rw [at_cons,at_prefixed] at hat
  have hhello := slice_at hat.2.2 (by rw [hmessage])
  have hhelloLen : be24 (0x01::prefixed 3 h.hello) 1=some h.hello.length :=
    be24_at hat.2.1 (by omega)
  rw [hmessage] at hslice
  rw [tlsSni,show (h.bytes)[0]?=some 0x16 from rfl,bind_some,
    be16_at hrecord (by omega),bind_some,hlength,show 9+h.hello.length=5+(4+h.hello.length)
    by omega,min_self,hslice,bind_some,getElem?_cons_zero,bind_some,
    hhelloLen,bind_some,hmessage,min_self]
  exact congrArg (bind · (helloSni table)) hhello

/-- The third reader judges the host name. -/
theorem tlsSni_bytes (table : CaseTable) :
    tlsSni table h.bytes=(h.host.map Prod.snd).bind (plausibleHost table) := by
  obtain ⟨hsession,hcipher,hcompression,hextensions,hsize⟩ :=
    hello_at h (at_zero h.hello) (zero_add _).symm
  obtain ⟨session,hsessionByte,hsessionLen⟩ := byte_at hsession h.sessionId_length
  obtain ⟨compression,hcompressionByte,hcompressionLen⟩ :=
    byte_at hcompression h.compressionMethods_length
  rw [tlsSni_hello,helloSni,hsessionByte,bind_some,hsessionLen]
  dsimp only
  rw [be16_at hcipher h.cipherSuites_length,bind_some,hcompressionByte,bind_some,
    hcompressionLen]
  cases hexts : h.extensions with
  | none =>
    have hempty := extensionBytes_none h hexts
    rw [be16,getElem?_eq_none (by omega),ClientHello.host,
      hexts]
    rfl
  | some exts =>
    obtain ⟨hlen,hbody,htotal,hrounds,hvalid,hbound⟩ := extensions_at h hexts hextensions
    rw [be16_at hlen hbound,bind_some,min_eq_left (by omega),
      scan_extensions (fun _ => plausibleHost table)
      (fun _ _ _ => sniTurn_other table)
      (fun _ _ _ => sniTurn_name table)
      exts hvalid hbody rfl (by omega),ClientHello.host,hexts,bind_some,
      findHost_host exts h.extensionsStart]
    cases findHost _ exts <;> rfl

/-- Characters of which names are made are ASCII characters. -/
theorem hostChar_ascii {c : Char} (hc : hostChar c=true) : c.toNat<128 := by
  simp only [hostChar,Bool.or_eq_true,beq_iff_eq] at hc
  rcases hc with ((hc | rfl) | rfl) | rfl
  · simp only [Char.isAlphanum,Char.isAlpha,Char.isUpper,Char.isLower,Char.isDigit,
      Bool.or_eq_true,Bool.and_eq_true,decide_eq_true_eq] at hc
    rcases hc with (⟨_,hlast⟩ | ⟨_,hlast⟩) | ⟨_,hlast⟩ <;>
      exact (UInt32.le_iff_toNat_le.mp hlast).trans_lt (by decide)
  · decide
  · decide
  · decide

/-- The name that is accepted, in terms of the text of the host name. -/
theorem plausibleHost_name {table : CaseTable} {host : Bytes} {name : Text}
    (hname : plausibleHost table host=some name) :
    ∃ text, fromUtf8 host=some text ∧ name=asciiLower (trimEndMatches '.' (trim text)) := by
  rw [plausibleHost] at hname
  split_ifs at hname
  obtain ⟨text,htext,hname⟩ := bind_eq_some_iff.mp hname
  refine ⟨text,htext,?_⟩
  dsimp only at hname
  split at hname
  · cases hname
  split at hname
  · cases hname
  rename_i hchars
  split_ifs at hname
  have hall : (trimEndMatches '.' (trim text)).all hostChar=true := by
    by_contra hall
    exact hchars (.inl (Bool.eq_false_iff.mpr hall))
  have hascii : ∀ c∈trimEndMatches '.' (trim text), c.toNat<128 := by
    intro c hc
    exact hostChar_ascii (all_eq_true.mp hall c hc)
  rw [←some.inj hname,toLowercase_ascii table hascii]

/-- The host name stands at its place. -/
theorem host_slice {pos : ℕ} {host : Bytes} (hhost : h.host=some (pos,host)) :
    slice h.bytes pos (pos+host.length)=some host := by
  obtain ⟨exts,hexts,hfound⟩ := bind_eq_some_iff.mp hhost
  obtain ⟨-,-,-,hat,hlength⟩ := record_at h
  obtain ⟨-,-,-,hextensions,-⟩ := hello_at h hat hlength
  obtain ⟨-,hbody,-⟩ := extensions_at h hexts hextensions
  rw [extensionsStart_eq] at hbody
  exact findHost_at exts hbody hfound

/-- There is no host name only if no extension has the type of server names. -/
theorem host_none_iff : h.host=none ↔ ∀ exts, h.extensions=some exts → ∀ e∈exts, e.kind≠0 := by
  rw [ClientHello.host,bind_eq_none_iff]
  refine forall_congr' fun exts => imp_congr_right fun hexts => ?_
  exact findHost_none_iff (h.extensions_valid exts hexts).1 _

end Readers

section AnyBytes

variable {b : Bytes}
variable {pos first last : ℕ} {buf : Bytes}

/-- No failure, and a place that is given lies inside the buffer. -/
def Inside (b : Bytes) (r : Option (Option (ℕ × ℕ))) : Prop :=
  ∃ found, r=some found ∧ ∀ first last, found=some (first,last) → first≤last ∧ last≤b.length

theorem inside_nothing : Inside b (some none) := ⟨none,rfl,nofun⟩

/-- A check that gives nothing does not fail. -/
theorem inside_check {c : Prop} [Decidable c] {x : Option (Option (ℕ × ℕ))}
    (hx : ¬c → Inside b x) : Inside b (if c then some none else x) := by
  split
  · exact inside_nothing
  · rename_i hc
    exact hx hc

/-- A reading that gives something does not fail. -/
theorem inside_bind {α : Type} {o : Option α} {f : α → Option (Option (ℕ × ℕ))}
    (ho : o.isSome=true) (hf : ∀ v, Inside b (f v)) : Inside b (o.bind f) := by
  obtain ⟨v,rfl⟩ := isSome_iff_exists.mp ho
  exact hf v

theorem byte_inside (hpos : pos<b.length) : (b[pos]?).isSome=true := by
  rw [getElem?_eq_getElem hpos]
  rfl

theorem u8_inside (hpos : pos<b.length) : (u8 b pos).isSome=true := by
  rw [u8,isSome_map,byte_inside hpos]

theorem u16_inside (hpos : pos+1<b.length) : (u16 b pos (pos+1)).isSome=true := by
  rw [u16,getElem?_eq_getElem (by omega),getElem?_eq_getElem hpos]
  rfl

theorem entryOffset_inside {body extLen : ℕ} (hbody : body+extLen≤b.length) :
    Inside b (entryOffset b body extLen) := by
  refine inside_check fun hlen => ?_
  refine inside_bind (u16_inside (by omega)) fun listLen => inside_check fun hlist => ?_
  refine inside_check fun hentry => ?_
  refine inside_bind (byte_inside (by omega)) fun kind => inside_check fun _ => ?_
  refine inside_bind (u16_inside (by omega)) fun nameLen => inside_check fun hname => ?_
  refine ⟨_,rfl,fun first last hfound => ?_⟩
  cases hfound
  omega

theorem offsetTurn_inside {extEnd curr : ℕ} (hend : extEnd≤b.length) (hcurr : curr+4≤extEnd)
    {r : Option (Option (ℕ × ℕ))} (hturn : offsetTurn b extEnd curr=.inl r) : Inside b r := by
  have hfirst : curr+1<b.length := by omega
  have hsecond : curr+2+1<b.length := by omega
  obtain ⟨extType,htype⟩ := isSome_iff_exists.mp (u16_inside hfirst)
  obtain ⟨extLen,hlen⟩ := isSome_iff_exists.mp (u16_inside hsecond)
  rw [offsetTurn,htype,hlen] at hturn
  dsimp only at hturn
  split at hturn
  · rw [←Sum.inl.inj hturn]
    exact inside_nothing
  split_ifs at hturn
  rw [←Sum.inl.inj hturn]
  exact entryOffset_inside (by omega)

/-- The application does not fail on any bytes. -/
theorem findSniOffset_inside (b : Bytes) : Inside b (findSniOffset b) := by
  refine inside_check fun hsize => ?_
  refine inside_bind (byte_inside (by omega)) fun first => inside_check fun _ => ?_
  refine inside_bind (byte_inside (by omega)) fun message => inside_check fun _ =>
    inside_check fun hsession => ?_
  refine inside_bind (u8_inside (by omega)) fun sessionIdLen => inside_check fun hcipher => ?_
  refine inside_bind (u16_inside (by omega)) fun cipherSuitesLen =>
    inside_check fun hcompression => ?_
  refine inside_bind (u8_inside (by omega)) fun compressionMethodsLen =>
    inside_check fun hextensions => ?_
  refine inside_bind (u16_inside (by omega)) fun extensionsLen => ?_
  exact scan_result (Inside b) inside_nothing
    (fun pos r hpos hturn => offsetTurn_inside (min_le_right _ _) hpos hturn) _ _

theorem hostTurn_inside (h : hostTurn buf pos=.inl (some (first,last))) :
    first<last ∧ last≤buf.length := by
  rw [hostTurn] at h
  split at h
  · split_ifs at h
    have hentry := Sum.inl.inj h
    simp only [hostEntry,bind_eq_some_iff,ite_none_left_eq_some] at hentry
    obtain ⟨_,_,_,_,_,hplace,hsome⟩ := hentry
    cases hsome
    omega
  · cases h

/-- A place that the engine gives lies inside the buffer. -/
theorem sniHostRange_inside (h : sniHostRange buf=some (first,last)) :
    first<last ∧ last≤buf.length := by
  simp only [sniHostRange,bind_eq_some_iff,ite_none_left_eq_some] at h
  obtain ⟨_,_,_,_,_,_,_,_,_,_,_,_,_,_,h⟩ := h
  have hnone : (none : Option (ℕ × ℕ))=some (first,last) → first<last ∧ last≤buf.length :=
    nofun
  refine scan_result (fun r => r=some (first,last) → first<last ∧ last≤buf.length) hnone
    (fun pos r _ hturn hr => ?_) _ _ h
  exact hostTurn_inside (hr ▸ hturn)

/-- The two readers of places give the place of the host name, and the third one
gives the name that stands there, in lower case and without white space around it
and full stops behind it. Without server names all three give nothing, and on any
bytes no place lies outside of the buffer. -/
theorem readers_agree (table : CaseTable) :
    (∀ h : ClientHello, (sniHostRange h.bytes).isSome=h.host.isSome ∧
      findSniOffset h.bytes=some (sniHostRange h.bytes) ∧
      ((∀ exts, h.extensions=some exts → ∀ e∈exts, e.kind≠0) ↔ h.host=none) ∧
      (h.host=none → sniHostRange h.bytes=none ∧ tlsSni table h.bytes=none) ∧
      ∀ pos host, h.host=some (pos,host) → sniHostRange h.bytes=some (pos,pos+host.length) ∧
        slice h.bytes pos (pos+host.length)=some host ∧
        tlsSni table h.bytes=plausibleHost table host ∧
        ∀ name, tlsSni table h.bytes=some name → ∃ text, fromUtf8 host=some text ∧
          name=asciiLower (trimEndMatches '.' (trim text)) ∧
          (trimEndMatches '.' (trim text)=text → name=asciiLower text)) ∧
    ∀ buf : Bytes,
      (∀ first last, sniHostRange buf=some (first,last) → first<last ∧ last≤buf.length) ∧
      ∃ found, findSniOffset buf=some found ∧
        ∀ first last, found=some (first,last) → first≤last ∧ last≤buf.length := by
  refine ⟨fun h => ?_,fun buf => ⟨fun first last => sniHostRange_inside,findSniOffset_inside buf⟩⟩
  have hrange := sniHostRange_bytes h
  have hsni := tlsSni_bytes h table
  refine ⟨?_,?_,(host_none_iff h).symm,fun hnone => ?_,fun pos host hhost => ?_⟩
  · rw [hrange,place,Option.isSome_map]
  · rw [findSniOffset_bytes,hrange]
  · rw [hrange,hsni,hnone]
    exact ⟨rfl,rfl⟩
  · rw [hhost] at hrange hsni
    refine ⟨hrange,host_slice h hhost,hsni,fun name hname => ?_⟩
    rw [hsni] at hname
    obtain ⟨text,htext,hlower⟩ := plausibleHost_name hname
    exact ⟨text,htext,hlower,fun hsame => by rw [hlower,hsame]⟩

/-- A hello with one list of server names. -/
def namedFields (host : Bytes) : HelloFields where
  recordVersion := [3,1]
  version := [3,3]
  random := List.replicate 32 7
  sessionId := []
  cipherSuites := [0x13,0x01]
  compressionMethods := [0]
  extensions := some [.other 43 [2,3,4],.serverName host []]

/-- The hello is well-formed for every host name that is not too long. -/
def namedHello (host : Bytes) (hne : host≠[]) (hsize : host.length<1000) : ClientHello where
  toHelloFields := namedFields host
  recordVersion_length := rfl
  version_length := rfl
  random_length := rfl
  sessionId_length := Nat.zero_lt_succ _
  cipherSuites_length := by
    change 2<65536
    decide
  compressionMethods_length := by
    change 1<256
    decide
  extensions_valid exts hexts := by
    cases hexts
    refine ⟨?_,?_⟩
    · rw [List.forall_mem_cons,List.forall_mem_singleton]
      refine ⟨⟨by decide,by decide,nofun,fun kind data h => ?_⟩,⟨Nat.zero_lt_succ _,?_,?_,nofun⟩⟩
      · cases h
        decide
      · rw [Extension.data,nameData_length,List.length_nil]
        omega
      · rintro host others h
        cases h
        exact hne
    · rw [List.flatMap_cons,List.flatMap_singleton,List.length_append,bytes_length,
        bytes_length,Extension.data,Extension.data,nameData_length]
      simp only [List.length_cons,List.length_nil]
      omega
  record_length := by
    simp only [HelloFields.hello,HelloFields.extensionBytes,namedFields,List.length_append,
      prefixed_length,List.flatMap_cons,List.flatMap_nil,bytes_length,Extension.data,nameList_length,
      List.length_cons,List.length_nil,List.length_replicate]
    omega

/-- A name with a capital letter is found by all three. -/
theorem readers_agree_capital :
    (namedHello [65,46,98] (by decide) (by decide)).host=some (68,[65,46,98]) ∧
      sniHostRange (namedFields [65,46,98]).bytes=some (68,71) ∧
      tlsSni CaseTable.plain (namedFields [65,46,98]).bytes=some ['a','.','b'] := by
  have h := ((readers_agree CaseTable.plain).1 (namedHello [65,46,98] (by decide) (by decide)))
  obtain ⟨hrange,_,hsni,_⟩ := h.2.2.2.2 68 [65,46,98] rfl
  exact ⟨rfl,hrange,hsni.trans (by decide +kernel)⟩

/-- A full stop behind the name stands at the place that is given, but not in the
name that is given. -/
theorem full_stop_trimmed :
    sniHostRange (namedHello [97,46,98,46] (by decide) (by decide)).bytes=some (68,72) ∧
      slice (namedHello [97,46,98,46] (by decide) (by decide)).bytes 68 72=
        some (encodeUtf8 ['a','.','b','.']) ∧
      tlsSni CaseTable.plain (namedHello [97,46,98,46] (by decide) (by decide)).bytes=
        some ['a','.','b'] ∧
      asciiLower ['a','.','b','.']≠['a','.','b'] := by
  decide +kernel

end AnyBytes

end MsnGuard.SniRanges
