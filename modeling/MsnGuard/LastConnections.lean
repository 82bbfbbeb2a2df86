import MsnGuard.SessionVariables
import MsnGuard.SiblingPaths

/-!
# The file of the last connections

The engine saves the gateway of a run in a file beside the identity that the run uses, and the
bridge of the session runtime reads gateways from a file beside the configuration path of the
session. The two are the same only for WireGuard without an organisation.
-/

namespace MsnGuard.LastConnections

open RustText AetherVariables AetherEngine SessionVariables SiblingPaths List

/-- The engine's configuration, unless the process names another. -/
def defaultConfig : Text := "aether.toml".toList

section Engine

variable (table : CaseTable)

/-- The WireGuard identity. -/
def warpConfigPath (e : Env) (base : Text) : Text :=
  match e (.other "WG_CONFIG".toList) with
  | some path => path
  | none =>
    match teamScope table e with
    | some team => deriveSiblingPath base ("team-".toList++team)
    | none => base

/-- The MASQUE identity. -/
def masqueConfigPath (e : Env) (base : Text) : Text :=
  match e (.other "MASQUE_CONFIG".toList) with
  | some path => path
  | none =>
    match teamScope table e with
    | some team => deriveSiblingPath base ("team-".toList++team)
    | none => deriveSiblingPath base "masque".toList

/-- The file of the last connections of an identity. -/
def lastconnPath (configPath : Text) : Text := deriveSiblingPath configPath "lastconn".toList

/-- The file in which the tunnel of a transport saves its gateways. A gateway that is
given is not saved, and two nested tunnels of one kind save none. -/
def tunnelFile (e : Env) : Protocol → Option Text
  | .masque => masqueFile
  | .wireGuard =>
    if (e .wgPeer).isSome || (e .peer).isSome then none
    else some (lastconnPath (warpConfigPath table e base))
  | .warpInWarp => if goolClassic e then none else masqueFile
  | .masqueInMasque => none
where
  base := (e .config).getD defaultConfig
  masqueFile :=
    if (e .peer).isSome then none else some (lastconnPath (masqueConfigPath table e base))

/-- The file in which a run saves its gateways, if it comes to one. A registration and a
carrier without a tunnel have none, and some carriers refuse some transports. No step
before the tunnel changes a variable that is read here once the transport is named. -/
def engineFile (e : Env) : Option Text :=
  if (AetherEngine.envValue e .register).isSome then none
  else if torMode table e=.only ∨ psiphonMode table e=.only then none
  else if torMode table e=.reverse ∧ psiphonMode table e=.reverse then none
  else (e .protocol).bind fun value =>
    let protocol := Protocol.parse table value
    if (torMode table e=.reverse ∨ psiphonMode table e=.reverse) ∧
      (protocol=.wireGuard ∨ protocol=.warpInWarp) then none
    else tunnelFile table e protocol

end Engine

/-- The bridge's own path of the file of the last connections. -/
def bridgeLastconnPath (configPath : Text) : Text :=
  match rfind (· == '.') (configPath.drop (dirEnd configPath)) with
  | some relative =>
    configPath.take (dirEnd configPath+relative) ++ "-lastconn".toList ++
      configPath.drop (dirEnd configPath+relative)
  | none => configPath ++ "-lastconn".toList

/-- The file from which the bridge reads gateways. -/
def carrierFile (cfg : SessionConfig) : Option Text :=
  if cfg.configPath=[] then none else some (bridgeLastconnPath cfg.configPath)

/-- The bridge derives the path as the engine does. -/
theorem bridgeLastconnPath_eq (path : Text) : bridgeLastconnPath path=lastconnPath path := by
  cases rfind (· == '.') (path.drop (dirEnd path)) <;> rfl

/-- The bridge reads the file of an identity exactly if the identity is at the
configuration path. -/
theorem carrierFile_eq_iff (cfg : SessionConfig) (path : Text) :
    carrierFile cfg=some (lastconnPath path) ↔ cfg.configPath≠[] ∧ path=cfg.configPath := by
  unfold carrierFile
  split
  · rename_i hempty
    simp [hempty]
  · rename_i hpath
    rw [bridgeLastconnPath_eq,Option.some_inj]
    constructor
    · intro heq
      exact ⟨hpath,(deriveSiblingPath_inj (by decide) heq).symm⟩
    · rintro ⟨-,rfl⟩
      rfl

/-- The session has the identity of its transport at its configuration path: WireGuard
without an organisation, or an identity that the process puts there. -/
def IdentityAtConfig (table : CaseTable) (cfg : SessionConfig) (e : Env) : Prop :=
  if cfg.protocol=.wireGuard then
    match e (.other "WG_CONFIG".toList) with
    | some path => path=cfg.configPath
    | none => normalizeTeam table (cfg.zeroTrust.teamName.getD [])=none
  else e (.other "MASQUE_CONFIG".toList)=some cfg.configPath

/-- The engine's transport for one of the runtime. -/
def transport : FcaeProtocol → Protocol
  | .masque | .auto | .tor => .masque
  | .wireGuard => .wireGuard
  | .gool | .warpInMasque => .warpInWarp
  | .masqueInMasque => .masqueInMasque

theorem parse_name (table : CaseTable) (p : FcaeProtocol) :
    Protocol.parse table (protocolName p)=transport p := by
  cases p <;> rfl

section Session

variable (table : CaseTable) (cfg : SessionConfig) (e : Env)

theorem prepare_config : prepare cfg e .config=some cfg.configPath :=
  prepare_assigned cfg e (by decide) fun w hw => by
    simp only [applyWrites,transportWrites,mem_append,hw,true_or,or_true]

theorem teamScope_prepare :
    teamScope table (prepare cfg e)=normalizeTeam table (cfg.zeroTrust.teamName.getD []) := by
  rw [teamScope,prepare_team]

theorem prepare_other {name : Text} : prepare cfg e (.other name)=e (.other name) :=
  prepare_unowned cfg e (by simp [owned]) (by simp)

variable {table cfg e}

theorem warpConfigPath_eq_iff :
    warpConfigPath table (prepare cfg e) cfg.configPath=cfg.configPath ↔
    match e (.other "WG_CONFIG".toList) with
    | some path => path=cfg.configPath
    | none => normalizeTeam table (cfg.zeroTrust.teamName.getD [])=none := by
  rw [warpConfigPath,prepare_other,teamScope_prepare]
  cases e (.other "WG_CONFIG".toList) with
  | some path => rfl
  | none =>
    cases normalizeTeam table (cfg.zeroTrust.teamName.getD []) with
    | none => simp
    | some team => simp [deriveSiblingPath_ne]

theorem masqueConfigPath_eq_iff :
    masqueConfigPath table (prepare cfg e) cfg.configPath=cfg.configPath ↔
      e (.other "MASQUE_CONFIG".toList)=some cfg.configPath := by
  rw [masqueConfigPath,prepare_other,teamScope_prepare]
  cases e (.other "MASQUE_CONFIG".toList) with
  | some path => simp
  | none =>
    cases normalizeTeam table (cfg.zeroTrust.teamName.getD []) with
    | none | some team => simp [deriveSiblingPath_ne]

/-- The file of a run is the one of the identity of its transport. -/
theorem engineFile_prepare {file : Text} (h : engineFile table (prepare cfg e)=some file) :
    file=lastconnPath (if cfg.protocol=.wireGuard
      then warpConfigPath table (prepare cfg e) cfg.configPath
      else masqueConfigPath table (prepare cfg e) cfg.configPath) := by
  have hbase : tunnelFile.base (prepare cfg e)=cfg.configPath := by
    rw [tunnelFile.base,prepare_config,Option.getD_some]
  have hmasque : tunnelFile.masqueFile table (prepare cfg e)=some file →
      file=lastconnPath (masqueConfigPath table (prepare cfg e) cfg.configPath) := by
    intro hfile
    rw [tunnelFile.masqueFile,hbase] at hfile
    split_ifs at hfile
    exact (Option.some_inj.mp hfile).symm
  have hsaved : tunnelFile table (prepare cfg e) (transport cfg.protocol)=some file := by
    unfold engineFile at h
    rw [prepare_protocol,Option.bind_some] at h
    dsimp only at h
    rw [parse_name] at h
    split at h
    · cases h
    split at h
    · cases h
    split at h
    · cases h
    split_ifs at h
    exact h
  cases hprotocol : cfg.protocol with
  | wireGuard =>
    rw [hprotocol,transport,tunnelFile,hbase] at hsaved
    split_ifs at hsaved
    rw [if_pos rfl]
    exact (Option.some_inj.mp hsaved).symm
  | masque | auto | tor =>
    rw [hprotocol,transport,tunnelFile] at hsaved
    rw [if_neg FcaeProtocol.noConfusion]
    exact hmasque hsaved
  | gool | warpInMasque =>
    rw [hprotocol,transport,tunnelFile] at hsaved
    split_ifs at hsaved
    rw [if_neg FcaeProtocol.noConfusion]
    exact hmasque hsaved
  | masqueInMasque =>
    rw [hprotocol,transport,tunnelFile] at hsaved
    cases hsaved

end Session

/-- Among the sessions whose engine saves gateways, the bridge reads the file in which
they are saved exactly for those that have the identity at their configuration path. -/
theorem reads_saved_iff (table : CaseTable) (cfg : SessionConfig) (e : Env) {file : Text}
    (h : engineFile table (prepare cfg e)=some file) :
    carrierFile cfg=some file ↔ cfg.configPath≠[] ∧ IdentityAtConfig table cfg e := by
  rw [engineFile_prepare h,carrierFile_eq_iff,IdentityAtConfig]
  split
  · rw [warpConfigPath_eq_iff]
  · rw [masqueConfigPath_eq_iff]

/-- A WireGuard session with the defaults otherwise. -/
def plainWireGuard : SessionConfig := {protocol := .wireGuard}

theorem wireguard_file : carrierFile plainWireGuard=some "aether-lastconn.toml".toList :=
  (reads_saved_iff .plain plainWireGuard ProcessEnvironments.unsetEnv rfl).mpr
    ⟨by decide,rfl⟩

/-- A session with the defaults saves its gateways beside the MASQUE identity and reads
them beside the configuration path. -/
theorem masque_file_unread :
    engineFile .plain (prepare {} ProcessEnvironments.unsetEnv)=
      some "aether-masque-lastconn.toml".toList ∧
    carrierFile {}=some "aether-lastconn.toml".toList ∧
    carrierFile {}≠engineFile .plain (prepare {} ProcessEnvironments.unsetEnv) := by
  have hread : carrierFile {}=some "aether-lastconn.toml".toList := rfl
  have hsaved : engineFile .plain (prepare {} ProcessEnvironments.unsetEnv)=
      some "aether-masque-lastconn.toml".toList := rfl
  refine ⟨hsaved,hread,?_⟩
  rw [hsaved,hread]
  decide

/-- How many gateways the file remembers. -/
def RECENT_CAP : ℕ := 8

/-- What the file holds. -/
structure LastConnection where
  peer : Text
  profile : Text
  carrier : Text
  recent : List Text
  deriving DecidableEq

/-- The encoding of the record, which is read back as it was written. -/
structure Toml (F : Type) where
  toStringPretty : LastConnection → F
  fromStr : F → Option LastConnection
  fromStr_toStringPretty : ∀ c, fromStr (toStringPretty c)=some c

/-- A call that saves a gateway, and whether the file could be written. -/
structure Save where
  peer : Text
  profile : Text
  carrier : Text
  written : Bool

/-- A record without a carrier is taken for one of any carrier. -/
def carriesOver (stored carrier : Text) : Bool := stored=[] || stored=carrier

/-- What a call writes over the record before it. -/
def Save.record (s : Save) (previous : Option LastConnection) : LastConnection :=
  let carriedOver := (previous.filter fun c => carriesOver c.carrier s.carrier).elim [] (·.recent)
  let push recent entry :=
    if entry≠s.peer ∧ recent.length<RECENT_CAP then recent++[entry] else recent
  ⟨s.peer,s.profile,s.carrier,carriedOver.foldl push [s.peer]⟩

/-- The gateways of a record that a carrier may try. -/
def usablePeers {A : Type} [DecidableEq A] (parse : Text → Option A) (cached : LastConnection)
    (carrier : Text) : List A :=
  if carriesOver cached.carrier carrier then (cached.peer::cached.recent).foldl insert []
  else []
where
  insert out raw :=
    match parse raw with
    | some addr => if addr∈out then out else out++[addr]
    | none => out

section Saves

variable {F A : Type} [DecidableEq A] (toml : Toml F) (parse : Text → Option A)

def load (file : Option F) : Option LastConnection := file.bind toml.fromStr

def save (file : Option F) (s : Save) : Option F :=
  if s.written then some (toml.toStringPretty (s.record (load toml file))) else file

/-- Gateways by their last use, of which the newest comes first. -/
def mru : List Text → List Text
  | [] => []
  | peer::older => peer::(mru older).filter (·≠peer)

/-- The gateways, newest first, that were saved since a carrier was not kept. -/
def since (keeps : Text → Text → Bool) : List Save → List Text
  | s::p::older => s.peer::if keeps p.carrier s.carrier then since keeps (p::older) else []
  | saves => saves.map (·.peer)

/-- The record that calls leave behind, newest first. -/
def held : List Save → Option LastConnection
  | [] => none
  | s::older => some ⟨s.peer,s.profile,s.carrier,(mru (since carriesOver (s::older))).take RECENT_CAP⟩

theorem mru_nodup (peers : List Text) : (mru peers).Nodup := by
  induction peers with
  | nil => exact nodup_nil
  | cons peer older ih => exact nodup_cons.mpr ⟨by simp,ih.filter _⟩

/-- A list that is one entry longer than what is left of it loses nothing to a filter. -/
theorem take_filter_ne {peer : Text} {entries : List Text} (h : entries.Nodup) (n : ℕ) :
    ((entries.take (n+1)).filter (·≠peer)).take n=(entries.filter (·≠peer)).take n := by
  induction entries generalizing n with
  | nil => rfl
  | cons entry entries ih =>
    obtain ⟨hout,hrest⟩ := nodup_cons.mp h
    rw [take_succ_cons]
    by_cases heq : entry=peer
    · have hall : ∀ other∈entries, decide (other≠peer)=true := by
        intro other hother
        exact decide_eq_true fun hsame => hout (heq.trans hsame.symm ▸ hother)
      have htake : ∀ other∈entries.take n, decide (other≠peer)=true :=
        fun other hother => hall other (mem_of_mem_take hother)
      rw [filter_cons_of_neg (by simpa using heq),filter_cons_of_neg (by simpa using heq),
        filter_eq_self.mpr hall,filter_eq_self.mpr htake,take_take,Nat.min_self]
    · rw [filter_cons_of_pos (by simpa using heq),filter_cons_of_pos (by simpa using heq)]
      cases n with
      | zero => rfl
      | succ n => rw [take_succ_cons,take_succ_cons,ih hrest]

theorem foldl_push {peer : Text} (entries recent : List Text) :
    entries.foldl (fun recent entry =>
      if entry≠peer ∧ recent.length<RECENT_CAP then recent++[entry] else recent) recent=
    recent++(entries.filter (·≠peer)).take (RECENT_CAP-recent.length) := by
  induction entries generalizing recent with
  | nil => simp
  | cons entry entries ih =>
    rw [foldl_cons,ih]
    by_cases heq : entry=peer
    · simp [heq]
    · rw [filter_cons_of_pos (by simpa using heq)]
      by_cases hroom : recent.length<RECENT_CAP
      · obtain ⟨room,hsome⟩ : ∃ room, RECENT_CAP-recent.length=room+1 :=
          ⟨RECENT_CAP-recent.length-1,by omega⟩
        have hless : RECENT_CAP-(recent.length+1)=room := by omega
        rw [if_pos ⟨heq,hroom⟩,hsome,take_succ_cons,length_append,length_singleton,
          hless,append_assoc,singleton_append]
      · have hnone : RECENT_CAP-recent.length=0 := by omega
        rw [if_neg (fun h => hroom h.2),hnone,take_zero,take_zero]

theorem record_held (s : Save) (older : List Save) :
    some (s.record (held older))=held (s::older) := by
  rw [held,Save.record,foldl_push]
  cases older with
  | nil => rfl
  | cons p older =>
    cases hkeeps : carriesOver p.carrier s.carrier with
    | false =>
      simp only [held,Option.filter_some,hkeeps,since]
      rfl
    | true =>
      simp only [held,Option.filter_some,hkeeps,since,if_true,Option.elim_some]
      rw [show RECENT_CAP-[s.peer].length=7 from rfl,show RECENT_CAP=7+1 from rfl,
        take_filter_ne (mru_nodup _)]
      rfl

/-- What is in the file is what the calls that could write leave behind. -/
theorem load_saves (saves : List Save) :
    load toml (saves.foldl (save toml) none)=held (saves.filter (·.written)).reverse := by
  induction saves using reverseRecOn with
  | nil => rfl
  | append_singleton saves s ih =>
    rw [foldl_append,foldl_cons,foldl_nil,filter_append,reverse_append]
    cases hwritten : s.written with
    | false => simpa [save,hwritten] using ih
    | true =>
      rw [save,if_pos hwritten,ih,load,Option.bind_some,toml.fromStr_toStringPretty,record_held]
      simp [hwritten]

/-- One entry is taken at most once, and behind those before it. -/
theorem insert_spec {out : List A} (h : out.Nodup) (raw : Text) :
    (usablePeers.insert parse out raw).Nodup ∧ out <+: usablePeers.insert parse out raw ∧
      ∀ a, a∈usablePeers.insert parse out raw ↔ a∈out ∨ parse raw=some a := by
  unfold usablePeers.insert
  cases parse raw with
  | none => simpa using h
  | some addr =>
    dsimp only
    split
    · rename_i hmem
      refine ⟨h,prefix_rfl,fun a => ⟨.inl,fun hor => hor.elim id ?_⟩⟩
      rintro ⟨⟩
      exact hmem
    · rename_i hout
      refine ⟨nodup_append.mpr ⟨h,by simp,?_⟩,prefix_append _ _,fun a => ?_⟩
      · rintro a ha b hb rfl
        rw [mem_singleton.mp hb] at ha
        exact hout ha
      · rw [mem_append,mem_singleton,Option.some.injEq,eq_comm]

theorem foldl_insert {out : List A} (h : out.Nodup) (raws : List Text) :
    (raws.foldl (usablePeers.insert parse) out).Nodup ∧
      out <+: raws.foldl (usablePeers.insert parse) out ∧
      ∀ a, a∈raws.foldl (usablePeers.insert parse) out ↔ a∈out ∨ ∃ raw∈raws, parse raw=some a := by
  induction raws generalizing out with
  | nil => simpa using h
  | cons raw raws ih =>
    obtain ⟨hnodup,hfront,hmem⟩ := insert_spec parse h raw
    obtain ⟨hnodup',hfront',hmem'⟩ := ih hnodup
    refine ⟨hnodup',hfront.trans hfront',fun a => (hmem' a).trans ?_⟩
    rw [hmem,or_assoc,exists_mem_cons_iff]

/-- The record holds the gateways since a carrier was not kept, by their last use, up
to the cap; and a carrier that is not kept may try none of them, its own all that parse. -/
theorem saved_gateways (saves : List Save) (c : LastConnection)
    (h : load toml (saves.foldl (save toml) none)=some c) :
    c.recent=(mru (since carriesOver (saves.filter (·.written)).reverse)).take RECENT_CAP ∧
    c.recent.length≤RECENT_CAP ∧ c.recent.head?=some c.peer ∧ c.recent.Nodup ∧
    (∀ carrier, carriesOver c.carrier carrier=false → usablePeers parse c carrier=[]) ∧
    (usablePeers parse c c.carrier).Nodup ∧
    (∀ a, a∈usablePeers parse c c.carrier ↔ ∃ entry∈c.recent, parse entry=some a) ∧
    ∀ a, parse c.peer=some a → (usablePeers parse c c.carrier).head?=some a := by
  rw [load_saves] at h
  cases hdone : (saves.filter (·.written)).reverse with
  | nil =>
    rw [hdone] at h
    cases h
  | cons s older =>
    rw [hdone] at h
    obtain ⟨rest,hsince⟩ : ∃ rest, since carriesOver (s::older)=s.peer::rest := by
      cases older <;> exact ⟨_,rfl⟩
    have hown : carriesOver s.carrier s.carrier=true := by simp [carriesOver]
    cases h
    rw [hsince]
    have hpeer : s.peer∈(mru (s.peer::rest)).take RECENT_CAP := List.mem_cons_self
    obtain ⟨hnodup,-,hmem⟩ := foldl_insert parse List.nodup_nil
      (s.peer::(mru (s.peer::rest)).take RECENT_CAP)
    refine ⟨rfl,List.length_take_le _ _,rfl,(mru_nodup _).sublist (List.take_sublist _ _),
      fun carrier hother => if_neg (by simpa using hother),?_,fun a => ?_,fun a hparse => ?_⟩
    · rw [usablePeers,if_pos hown]
      exact hnodup
    · rw [usablePeers,if_pos hown,hmem]
      grind
    · have hfirst : usablePeers.insert parse [] s.peer=[a] := by
        simp [usablePeers.insert,hparse]
      obtain ⟨-,⟨tail,htail⟩,-⟩ := foldl_insert parse (List.nodup_singleton a)
        ((mru (s.peer::rest)).take RECENT_CAP)
      rw [usablePeers,if_pos hown,List.foldl_cons,hfirst,←htail]
      rfl

end Saves

/-- Records that are written as they are. -/
def plainToml : Toml LastConnection := ⟨id,some,fun _ => rfl⟩

/-- Three calls for one carrier, of which two are for one gateway. -/
def againSaves : List Save := ["a","b","a"].map fun peer => ⟨peer.toList,[],['w'],true⟩

theorem saved_gateways_again : ∃ c, load plainToml (againSaves.foldl (save plainToml) none)=some c ∧
    c.recent=[['a'],['b']] ∧ c.recent.head?=some c.peer :=
  ⟨_,rfl,rfl,(saved_gateways plainToml some againSaves _ rfl).2.2.1⟩

/-- A call without a carrier and one with a carrier. -/
def namelessSaves : List Save := [⟨['a'],[],[],true⟩,⟨['b'],[],['w'],true⟩]

/-- A record without a carrier is carried over to the next carrier, and tried by all. -/
theorem nameless_carrier_kept : ∃ c,
    load plainToml (namelessSaves.foldl (save plainToml) none)=some c ∧
    c.recent≠(mru (since (·==·) namelessSaves.reverse)).take RECENT_CAP ∧
    usablePeers some ((⟨['a'],[],[],true⟩ : Save).record none) ['w']≠[] :=
  ⟨_,rfl,by decide,by decide⟩

end MsnGuard.LastConnections
