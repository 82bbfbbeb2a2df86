import MsnGuard.NetstackConnections
import MsnGuard.StagedStreams

/-!
# The way of the uploaded bytes

Bytes of an application wait in the channel to the stack, then perhaps as the deferred item,
then in the pending buffer of their connection, until the socket takes them. For every
connection this is a stream through stages.
-/

namespace MsnGuard.NetstackUpload

open RustText IpAddresses BoundedChannels FiniteTables TransitionRuns StagedStreams List
open NetstackModel NetStack NetstackPasses NetstackSteps NetstackHandles NetstackConnections
open SimulatedSockets

variable {σ υ : Type} (pkg : SocketPackage σ υ) (cfg : Config)

/-- The items that the channel has taken, in order. -/
def queuedItems (events : List Event) : List DataIn :=
  events.filterMap fun
    | .queued item => some item
    | _ => none

/-- The bytes for a connection in some items. -/
def bytesFor (id : ℕ) (items : List DataIn) : Bytes :=
  items.flatMap fun
    | .tcp i data => if i=id then data else []
    | _ => []

/-- Bytes and closes for a connection in one item. -/
def itemTokens (id : ℕ) : DataIn → List (Option UInt8)
  | .tcp i data => if i=id then data.map some else []
  | .tcpClose i => if i=id then [none] else []
  | _ => []

/-- Bytes and closes for a connection in some items. -/
def tokens (id : ℕ) (items : List DataIn) : List (Option UInt8) := items.flatMap (itemTokens id)

/-- What waits to be handled. -/
def waiting (s : NetStack σ υ) : List DataIn := s.deferred++s.dataIn.queue

/-- The stream of a connection. -/
def uplink (id : ℕ) (t : List Event) (s : NetStack σ υ) (st : TcpState) : Stream UInt8 where
  queued := tokens id (queuedItems t)
  waiting := tokens id (waiting s)
  accepted := acceptedBytes id t
  pending := st.pending
  closed := st.halfClosed

section Tokens

theorem queuedItems_append (events more : List Event) :
    queuedItems (events++more)=queuedItems events++queuedItems more := filterMap_append

theorem tokens_append (id : ℕ) (items more : List DataIn) :
    tokens id (items++more)=tokens id items++tokens id more := flatMap_append

theorem tokens_cons (id : ℕ) (item : DataIn) (items : List DataIn) :
    tokens id (item::items)=itemTokens id item++tokens id items := flatMap_cons

theorem tokens_singleton (id : ℕ) (item : DataIn) : tokens id [item]=itemTokens id item :=
  flatMap_singleton (itemTokens id) item

theorem bytesFor_append (id : ℕ) (items more : List DataIn) :
    bytesFor id (items++more)=bytesFor id items++bytesFor id more := flatMap_append

/-- The values of the tokens are the bytes. -/
theorem values_tokens (id : ℕ) (items : List DataIn) : values (tokens id items)=bytesFor id items := by
  induction items with
  | nil => rfl
  | cons item items ih =>
    have hitem : values (itemTokens id item)=bytesFor id [item] := by
      cases item with
      | tcp i data =>
        by_cases hi : i=id
        · simp [itemTokens,bytesFor,hi,values_some]
        · simp [itemTokens,bytesFor,hi,values]
      | tcpClose i =>
        by_cases hi : i=id <;> simp [itemTokens,bytesFor,hi,values]
      | udp i dst data | udpClose i => rfl
    rw [tokens_cons,values_append,hitem,ih,←bytesFor_append,singleton_append]

theorem itemTokens_other {id : ℕ} {item : DataIn} (h : item.id≠id) : itemTokens id item=[] := by
  cases item with
  | tcp i data | tcpClose i => exact if_neg h
  | udp i dst data | udpClose i => rfl

/-- A close among the tokens is a close among the items. -/
theorem mem_of_none_mem {id : ℕ} {items : List DataIn} (h : none∈tokens id items) :
    .tcpClose id∈items := by
  rcases mem_flatMap.mp h with ⟨item,hmem,hnone⟩
  by_cases hi : item.id=id
  · cases item with
    | tcp i data => simp [itemTokens] at hnone
    | tcpClose i =>
      rw [←hi]
      exact hmem
    | udp i dst data | udpClose i => cases hnone
  · rw [itemTokens_other hi] at hnone
    cases hnone

theorem queuedItems_ofPass {id : ℕ} {events : List Event} (h : ∀ e∈events, OfPass id e) :
    queuedItems events=[] := by
  rw [queuedItems,filterMap_eq_nil_iff]
  intro e he
  have hp := h e he
  cases e <;> first | rfl | exact hp.elim

end Tokens

section Steps

variable {s s' : NetStack σ υ} {t new : List Event} {id : ℕ} {st st' : TcpState}
variable {item : DataIn} {back : Option DataIn} {j : ℕ}

/-- An item enters the channel, or does not. -/
theorem tokens_queued {dataIn : Chan DataIn} (h : Queued s item dataIn new)
    (hw : s'.deferred=s.deferred) (hd : s'.dataIn=dataIn) (id : ℕ) :
    tokens id (waiting s')=tokens id (waiting s)++tokens id (queuedItems new) ∧
      (itemTokens id item=[] → tokens id (queuedItems new)=[]) ∧ acceptedBytes id new=[] := by
  rcases h with ⟨hroom,rfl,rfl⟩ | ⟨rfl,rfl⟩
  · refine ⟨?_,fun hnone => (tokens_singleton id item).trans hnone,rfl⟩
    have hqueue : (s.dataIn.send item).queue=s.dataIn.queue++[item] := by
      unfold Chan.send
      rw [dif_pos hroom]
    rw [waiting,hw,hd,hqueue,←append_assoc,tokens_append,waiting]
    rfl
  · refine ⟨?_,fun _ => rfl,rfl⟩
    rw [waiting,hw,hd,waiting]
    exact (append_nil _).symm

/-- What handling an item does to a connection. -/
inductive Takes (id : ℕ) (item : DataIn) (back : Option DataIn) (st st' : TcpState) : Prop
  /-- Bytes are moved to the pending buffer. -/
  | bytes (data : Bytes) : itemTokens id item=data.map some++tokens id back.toList →
      st'.pending=st.pending++data → st'.halfClosed=st.halfClosed → Takes id item back st st'
  /-- The application has closed its half. -/
  | close : itemTokens id item=none::tokens id back.toList → st'.pending=st.pending →
      st'.halfClosed=true → Takes id item back st st'

/-- An item for another connection does nothing. -/
theorem Takes.other (h : item.id≠id) (hback : tokens id back.toList <:+ itemTokens id item) :
    Takes id item back st st := by
  rw [itemTokens_other h,suffix_nil] at hback
  refine .bytes [] ?_ (append_nil _).symm rfl
  rw [itemTokens_other h,hback,map_nil,nil_append]

/-- An item for a connection that is not there does nothing. -/
theorem Takes.missing (hmissing : s.tcpConns.lookup item.id=none)
    (hst : s.tcpConns.lookup id=some st) : Takes id item none st st := by
  refine .other ?_ nil_suffix
  intro heq
  rw [heq,hst] at hmissing
  cases hmissing

/-- What waits is left by handling an item. -/
theorem Handled.frame (h : Handled cfg s item s' back) :
    s'.deferred=s.deferred ∧ s'.dataIn=s.dataIn ∧ s'.nextId=s.nextId := by
  cases h <;> exact ⟨rfl,rfl,rfl⟩

/-- What has to be deferred is a rest of the item. -/
theorem Handled.suffix (h : Handled cfg s item s' back) (id : ℕ) :
    tokens id back.toList <:+ itemTokens id item := by
  cases h with
  | @tcpFull i data _ _ _ => exact ⟨[],tokens_singleton id (.tcp i data)⟩
  | @tcpTaken i taken rest _ _ _ _ hback =>
    rcases hback with ⟨-,rfl⟩ | rfl
    · exact nil_suffix
    · rw [Option.toList_some,tokens_singleton]
      by_cases hi : i=id
      · rw [itemTokens,itemTokens,if_pos hi,if_pos hi,map_append]
        exact suffix_append _ _
      · rw [itemTokens,if_neg hi]
        exact nil_suffix
  | _ => exact nil_suffix

/-- Handling an item moves bytes to its connection or closes it. -/
theorem Handled.takes (h : Handled cfg s item s' back) (hst' : s'.tcpConns.lookup id=some st') :
    ∃ st, s.tcpConns.lookup id=some st ∧ Takes id item back st st' := by
  have hsuffix := Handled.suffix cfg h id
  cases h with
  | tcpMissing hmissing | closeMissing hmissing => exact ⟨st',hst',.missing hmissing hst'⟩
  | @tcpFull i data _ _ _ =>
    refine ⟨st',hst',.bytes [] ?_ (append_nil _).symm rfl⟩
    exact (tokens_singleton id (.tcp i data)).symm
  | @tcpTaken i taken rest _ st hst _ hback =>
    rw [lookup_insert_eq] at hst'
    split at hst'
    · rename_i hi
      cases hst'
      refine ⟨st,by rw [hi]; exact hst,.bytes taken ?_ rfl rfl⟩
      rw [hi,itemTokens,if_pos rfl,map_append]
      rcases hback with ⟨rfl,rfl⟩ | rfl
      · rfl
      · rw [Option.toList_some,tokens_singleton,itemTokens,if_pos rfl]
    · rename_i hi
      exact ⟨st',hst',.other (fun heq => hi heq.symm) hsuffix⟩
  | @closed i st hst =>
    rw [lookup_insert_eq] at hst'
    split at hst'
    · rename_i hi
      cases hst'
      refine ⟨st,by rw [hi]; exact hst,.close ?_ rfl rfl⟩
      rw [hi]
      exact if_pos rfl
    · rename_i hi
      exact ⟨st',hst',.other (fun heq => hi heq.symm) hsuffix⟩
  | udpMissing _ | udpSent _ _ | udpCloseMissing _ | udpClosed _ =>
    exact ⟨st',hst',.bytes [] rfl (append_nil _).symm rfl⟩

/-- The first waiting item is handled: a step of the stream of every connection. -/
theorem uplink_takes {rest : List DataIn} (hbefore : waiting s=item::rest)
    (hafter : waiting s'=back.toList++rest) (h : Takes id item back st st') :
    Stream.Step (uplink id t s st) (uplink id (t++[]) s' st') := by
  rw [append_nil]
  have hwait : (uplink id t s st).waiting=itemTokens id item++tokens id rest := by
    rw [uplink,hbefore,tokens_cons]
  cases h with
  | bytes data htokens hpending hclosed =>
    have heq : uplink id t s' st'={uplink id t s st with
        waiting := tokens id back.toList++tokens id rest,pending := st.pending++data} := by
      rw [uplink,hafter,tokens_append,hpending,hclosed,uplink]
    rw [heq]
    refine .take _ data _ ?_
    rw [hwait,htokens,append_assoc]
  | close htokens hpending hclosed =>
    have heq : uplink id t s' st'={uplink id t s st with
        waiting := tokens id back.toList++tokens id rest,closed := true} := by
      rw [uplink,hafter,tokens_append,hpending,hclosed,uplink]
    rw [heq]
    refine .close _ _ ?_
    rw [hwait,htokens,cons_append]

/-- What a step does to the way of the bytes. -/
inductive Carried (s s' : NetStack σ υ) : List Event → Prop
  /-- Items enter the channel and sockets take pending bytes; a connection may be new. -/
  | passed {new : List Event} : s'.deferred=s.deferred → s.nextId ≤ s'.nextId →
      (∀ id, tokens id (waiting s')=tokens id (waiting s)++tokens id (queuedItems new)) →
      (∀ id, s.nextId ≤ id → s.tcpConns.lookup id=none →
        tokens id (queuedItems new)=[] ∧ acceptedBytes id new=[]) →
      (∀ id st', s'.tcpConns.lookup id=some st' →
        (∃ st, s.tcpConns.lookup id=some st ∧ st.pending=acceptedBytes id new++st'.pending ∧
          st'.halfClosed=st.halfClosed) ∨
        (id=s.nextId ∧ st'.pending=[] ∧ st'.halfClosed=false)) → Carried s s' new
  /-- The first waiting item is handled. -/
  | taken {item : DataIn} {rest : List DataIn} {back : Option DataIn} : waiting s=item::rest →
      waiting s'=back.toList++rest → (s.deferred.length≤1 → s'.deferred.length≤1) →
      s'.nextId=s.nextId → (∀ id, tokens id back.toList <:+ itemTokens id item) →
      (∀ id st', s'.tcpConns.lookup id=some st' →
        ∃ st, s.tcpConns.lookup id=some st ∧ Takes id item back st st') → Carried s s' []

/-- A step that moves no item and no byte. -/
theorem Carried.still (hd : s'.deferred=s.deferred) (hdata : s'.dataIn=s.dataIn)
    (hn : s.nextId ≤ s'.nextId) (hq : queuedItems new=[]) (ha : ∀ id, acceptedBytes id new=[])
    (hc : ∀ id st', s'.tcpConns.lookup id=some st' →
      (∃ st, s.tcpConns.lookup id=some st ∧ st'.pending=st.pending ∧
        st'.halfClosed=st.halfClosed) ∨
      (id=s.nextId ∧ st'.pending=[] ∧ st'.halfClosed=false)) : Carried s s' new := by
  refine .passed hd hn (fun id => ?_) (fun id _ _ => ⟨by rw [hq]; rfl,ha id⟩) fun id st' hst' => ?_
  · rw [waiting,hd,hdata,hq,waiting]
    exact (append_nil _).symm
  · rw [ha]
    refine (hc id st' hst').imp_left ?_
    rintro ⟨st,hst,hpending,hclosed⟩
    exact ⟨st,hst,hpending.symm,hclosed⟩

/-- Connections that a step leaves as they are. -/
theorem Carried.same (hd : s'.deferred=s.deferred) (hdata : s'.dataIn=s.dataIn)
    (hn : s.nextId ≤ s'.nextId) (hq : queuedItems new=[]) (ha : ∀ id, acceptedBytes id new=[])
    (hc : s'.tcpConns=s.tcpConns) : Carried s s' new := by
  refine .still hd hdata hn hq ha fun id st' hst' => ?_
  rw [hc] at hst'
  exact .inl ⟨st',hst',rfl,rfl⟩

/-- A connection is serviced. -/
theorem Carried.served {dataIn : Chan DataIn} {queued events : List Event}
    (hst : s.tcpConns.lookup j=some st) (hqueued : Queued s (.tcpClose j) dataIn queued)
    (hdata : s'.dataIn=dataIn) (hd : s'.deferred=s.deferred) (hn : s'.nextId=s.nextId)
    (hevents : ∀ e∈events, OfPass j e)
    (hc : ∀ id st', s'.tcpConns.lookup id=some st' → (id≠j ∧ s.tcpConns.lookup id=some st') ∨
      (id=j ∧ st.pending=acceptedBytes j events++st'.pending ∧ st'.halfClosed=st.halfClosed)) :
    Carried s s' (queued++events) := by
  have hqueue : queuedItems (queued++events)=queuedItems queued := by
    rw [queuedItems_append,queuedItems_ofPass hevents,append_nil]
  have haccepted : ∀ id, acceptedBytes id (queued++events)=acceptedBytes id events := fun id => by
    rw [acceptedBytes_append,(tokens_queued hqueued hd hdata id).2.2,nil_append]
  refine .passed hd hn.ge (fun id => ?_) (fun id _ hnone => ?_) fun id st' hst' => .inl ?_
  · rw [hqueue,(tokens_queued hqueued hd hdata id).1]
  · have hne : id≠j := by
      rintro rfl
      rw [hst] at hnone
      cases hnone
    rw [hqueue,haccepted]
    exact ⟨(tokens_queued hqueued hd hdata id).2.1 (itemTokens_other hne.symm),
      acceptedBytes_other hevents hne⟩
  · rw [haccepted]
    rcases hc id st' hst' with ⟨hne,hbefore⟩ | ⟨rfl,hpending,hclosed⟩
    · rw [acceptedBytes_other hevents hne]
      exact ⟨st',hbefore,rfl,rfl⟩
    · exact ⟨st,hst,hpending,hclosed⟩

theorem visited_carried {now : ℕ} {moves : ℕ → Moves} (h : Visited pkg cfg s j moves now s' new) :
    Carried s s' new := by
  cases h with
  | missing _ => exact .same rfl rfl le_rfl rfl (fun _ => rfl) rfl
  | aborted _ _ =>
    exact .still rfl rfl le_rfl rfl (fun _ => rfl)
      fun id st' hst' => .inl ⟨st',lookup_of_erase hst',rfl,rfl⟩
  | @kept st st₁ sock _ _ _ _ hst _ _ hqueued hconn =>
    have hspec := serviceConn_spec pkg cfg now j moves st sock
    refine .served hst hqueued rfl rfl rfl hspec.events ?_
    intro id st' hst'
    rw [lookup_insert_eq] at hst'
    split at hst'
    · rename_i hid
      cases hst'
      exact .inr ⟨hid,hspec.pending _ _ hconn,(hspec.keeps _ _ hconn).halfClosed⟩
    · rename_i hid
      exact .inl ⟨hid,hst'⟩
  | @removed st sock _ _ _ hst _ _ hqueued _ =>
    have hspec := serviceConn_spec pkg cfg now j moves st sock
    refine .served hst hqueued rfl rfl rfl hspec.events ?_
    intro id st' hst'
    rw [lookup_erase_eq] at hst'
    split at hst'
    · cases hst'
    · rename_i hid
      exact .inl ⟨hid,hst'⟩

theorem Commanded.carried {cmd : Cmd} {handle clock : ℕ}
    (h : Commanded pkg cfg s cmd handle clock s' new) : Carried s s' new := by
  cases h with
  | refused e | addressed iface => exact .same rfl rfl le_rfl rfl (fun _ => rfl) rfl
  | openedTcp _ =>
    refine .still rfl rfl (Nat.le_succ _) rfl (fun _ => rfl) fun id st' hst' => ?_
    rw [lookup_insert_eq] at hst'
    split at hst'
    · rename_i hid
      cases hst'
      exact .inr ⟨hid,rfl,rfl⟩
    · exact .inl ⟨st',hst',rfl,rfl⟩
  | @openedUdp _ _ _ _ _ dataIn queued _ hqueued =>
    -- The close of a UDP connection carries nothing.
    have htokens := @tokens_queued _ _ s {s with dataIn := dataIn} queued _ _ hqueued rfl rfl
    exact .passed rfl (Nat.le_succ _) (fun id => (htokens id).1)
      (fun id _ _ => ⟨(htokens id).2.1 rfl,(htokens id).2.2⟩)
      fun id st' hst' => .inl ⟨st',hst',(congrArg (·++_) (htokens id).2.2).symm,rfl⟩

theorem UdpVisited.carried (h : UdpVisited s j s') : Carried s s' [] := by
  cases h <;> exact .same rfl rfl le_rfl rfl (fun _ => rfl) rfl

/-- Where the loop stands does not matter. -/
theorem Carried.before {p : Phase} (h : Carried {s with phase := p} s' new) : Carried s s' new := by
  cases h with
  | passed hd hn hw hfresh hc => exact .passed hd hn hw hfresh hc
  | taken hw hw' hd hn hb hc => exact .taken hw hw' hd hn hb hc

/-- Every step carries bytes on in one of the ways. -/
theorem effect_carried {a : Action σ υ} (h : Effect pkg cfg s a s' new) : Carried s s' new := by
  cases h with
  | wait p | poll p _ => exact .same rfl rfl le_rfl rfl (fun _ => rfl) rfl
  | tcp _ hvisit => exact (visited_carried pkg cfg hvisit).before
  | udp hvisit => exact (UdpVisited.carried hvisit).before
  | @deferred _ item rest back p s₁ hdeferred hhandled =>
    rcases Handled.frame cfg hhandled with ⟨hd,hdata,hnext⟩
    have htakes := fun id st' => @Handled.takes _ _ cfg _ _ id st' _ _ hhandled
    refine .taken (by rw [waiting,hdeferred,cons_append]) ?_ ?_ hnext
      (Handled.suffix cfg hhandled) htakes
    · rw [waiting]
      rw [hd,hdata,append_assoc]
    · intro hle
      rw [hdeferred,length_cons] at hle
      have hrest : rest=[] := eq_nil_of_length_eq_zero (by omega)
      rw [hd,hrest,append_nil]
      exact Option.length_toList_le
  | @received _ item rest back p s₁ hdeferred hqueue hhandled =>
    rcases Handled.frame cfg hhandled with ⟨hd,hdata,hnext⟩
    have htakes := fun id st' => @Handled.takes _ _ cfg _ _ id st' _ _ hhandled
    have hread : (s.dataIn.read 1).queue=rest := by
      change s.dataIn.queue.drop 1=rest
      rw [hqueue,drop_one,tail_cons]
    refine .taken (by rw [waiting,hdeferred,hqueue,nil_append]) ?_ ?_ hnext
      (Handled.suffix cfg hhandled) htakes
    · rw [waiting]
      rw [hd,hdata,hread,hdeferred,nil_append]
    · intro _
      rw [hd,hdeferred,nil_append]
      exact Option.length_toList_le
  | command _ hcommand => exact (Commanded.carried pkg cfg hcommand).before
  | @queue _ item dataIn _ hissued hqueued =>
    have htokens := @tokens_queued _ _ s {s with dataIn := dataIn} new _ _ hqueued rfl rfl
    refine .passed rfl le_rfl (fun id => (htokens id).1) (fun id hid _ => ?_)
      fun id st' hst' => .inl ⟨st',hst',(congrArg (·++_) (htokens id).2.2).symm,rfl⟩
    have hother := itemTokens_other (hissued.1.trans_le hid).ne
    exact ⟨(htokens id).2.1 hother,(htokens id).2.2⟩
  | modifyTcp id hf =>
    unfold modifyTcp
    split
    · exact .same rfl rfl le_rfl rfl (fun _ => rfl) rfl
    · rename_i st hst
      refine .still rfl rfl le_rfl rfl (fun _ => rfl) fun i st' hst' => ?_
      rw [lookup_insert_eq] at hst'
      split at hst'
      · rename_i hi
        cases hst'
        rw [hi]
        exact .inl ⟨st,hst,hf.pending st,hf.halfClosed st⟩
      · exact .inl ⟨st',hst',rfl,rfl⟩
  | modifyUdp id _ =>
    unfold modifyUdp
    split <;> exact .same rfl rfl le_rfl rfl (fun _ => rfl) rfl

end Steps

/-- The invariant: the streams of all connections are in order, and nothing is on
its way for a connection that does not exist yet. -/
structure UploadOk (t : List Event) (s : NetStack σ υ) : Prop where
  /-- The streams are in order. -/
  ordered : ∀ id st, s.tcpConns.lookup id=some st → (uplink id t s st).Ordered
  /-- Numbers that have not been given are unused. -/
  fresh : ∀ id, s.nextId ≤ id → tokens id (queuedItems t)=[] ∧ tokens id (waiting s)=[] ∧
    acceptedBytes id t=[]
  /-- At most one item is deferred. -/
  deferred : s.deferred.length≤1

section Invariant

variable {s s' : NetStack σ υ} {t new : List Event}
variable {id : ℕ} {item : DataIn} {dataIn : Chan DataIn}

/-- Items enter the channel, and then the sockets take bytes; a new connection starts
with empty streams. -/
theorem UploadOk.passed (hok : UploadOk t s) (hs : HandlesOk s) (hd : s'.deferred=s.deferred)
    (hn : s.nextId ≤ s'.nextId)
    (hw : ∀ id, tokens id (waiting s')=tokens id (waiting s)++tokens id (queuedItems new))
    (hfresh : ∀ id, s.nextId ≤ id → s.tcpConns.lookup id=none →
      tokens id (queuedItems new)=[] ∧ acceptedBytes id new=[])
    (hc : ∀ id st', s'.tcpConns.lookup id=some st' →
      (∃ st, s.tcpConns.lookup id=some st ∧ st.pending=acceptedBytes id new++st'.pending ∧
        st'.halfClosed=st.halfClosed) ∨
      (id=s.nextId ∧ st'.pending=[] ∧ st'.halfClosed=false)) : UploadOk (t++new) s' := by
  have hunused : ∀ id, s.nextId ≤ id → tokens id (queuedItems (t++new))=[] ∧
      tokens id (waiting s')=[] ∧ acceptedBytes id (t++new)=[] := by
    intro id hid
    have hnone : s.tcpConns.lookup id=none := by
      cases hst : s.tcpConns.lookup id with
      | none => rfl
      | some st => exact absurd (hs.fresh _ _ (owner_tcp hst)) hid.not_gt
    rcases hok.fresh id hid with ⟨hq₀,hw₀,ha₀⟩
    rcases hfresh id hid hnone with ⟨hq,ha⟩
    rw [queuedItems_append,tokens_append,hw,hq,hq₀,hw₀,acceptedBytes_append,ha,ha₀]
    exact ⟨rfl,rfl,rfl⟩
  constructor
  · intro id st' hst'
    rcases hc id st' hst' with ⟨st,hst,hsent,hclosed⟩ | ⟨hid,hp,hh⟩
    · have hstep := ((hok.ordered id st hst).step (.enqueue _ (tokens id (queuedItems new)))).step
        (.send _ _ _ hsent)
      rw [uplink,queuedItems_append,tokens_append,hw,acceptedBytes_append,hclosed]
      exact hstep
    · rcases hunused id hid.ge with ⟨hq,hwait,ha⟩
      rw [uplink,hq,hwait,ha,hp,hh]
      exact ⟨[],rfl,rfl,nofun⟩
  · exact fun id hid => hunused id (hn.trans hid)
  · rw [hd]
    exact hok.deferred

/-- The first waiting item is handled. -/
theorem UploadOk.taken {rest : List DataIn} {back : Option DataIn} (hok : UploadOk t s)
    (hw : waiting s=item::rest) (hw' : waiting s'=back.toList++rest)
    (hd : s.deferred.length≤1 → s'.deferred.length≤1) (hn : s'.nextId=s.nextId)
    (hback : ∀ id, tokens id back.toList <:+ itemTokens id item)
    (hc : ∀ id st', s'.tcpConns.lookup id=some st' →
      ∃ st, s.tcpConns.lookup id=some st ∧ Takes id item back st st') : UploadOk (t++[]) s' := by
  constructor
  · intro id st' hst'
    rcases hc id st' hst' with ⟨st,hst,htakes⟩
    exact (hok.ordered id st hst).step (uplink_takes hw hw' htakes)
  · intro id hid
    rw [hn] at hid
    rcases hok.fresh id hid with ⟨hq₀,hw₀,ha₀⟩
    rw [hw,tokens_cons,append_eq_nil_iff] at hw₀
    have hnone := hback id
    rw [hw₀.1,suffix_nil] at hnone
    rw [append_nil,hw',tokens_append,hnone,hw₀.2]
    exact ⟨hq₀,rfl,ha₀⟩
  · exact hd hok.deferred

/-- Every step keeps the streams in order. -/
theorem UploadOk.carried (hok : UploadOk t s) (hs : HandlesOk s) (h : Carried s s' new) :
    UploadOk (t++new) s' := by
  cases h with
  | passed hd hn hw hfresh hc => exact hok.passed hs hd hn hw hfresh hc
  | taken hw hw' hd hn hback hc => exact hok.taken hw hw' hd hn hback hc

/-- Along every run the streams of all connections are in order. -/
theorem uploadOk_of_run {cond : List Event → NetStack σ υ → Action σ υ → Prop}
    (h : (machine pkg cfg).Run cond t s) : UploadOk t s := by
  have hboth : HandlesOk s ∧ UploadOk t s := by
    refine Machine.Run.invariant (fun t s => HandlesOk s ∧ UploadOk t s) ?_ ?_ h
    · intro s hs
      rcases hs with ⟨v4,v6,rfl⟩
      exact ⟨handlesOk_spawn cfg v4 v6,nofun,fun _ _ => ⟨rfl,rfl,rfl⟩,Nat.zero_le _⟩
    · intro t s a s' new hok ha _ he
      have heffect := exec_effect pkg cfg ha he
      exact ⟨hok.1.moved pkg (effect_moved pkg cfg heffect),
        hok.2.carried hok.1 (effect_carried pkg cfg heffect)⟩
  exact hboth.2

end Invariant

/-- In every reachable state, for every connection: the bytes that were queued for
it are those the socket has taken, then those that are pending, then those of the
deferred item, then those in the channel; the pending bytes respect their limit;
and the connection is half closed only when everything queued before the first
close is pending or taken. At most one item is deferred. -/
theorem upload_in_order {t : List Event} {s : NetStack σ υ}
    (h : (machine pkg cfg).Run always t s) :
    (∀ id st, s.tcpConns.lookup id=some st → bytesFor id (queuedItems t)=acceptedBytes id t ++
        (st.pending++(bytesFor id s.deferred++bytesFor id s.dataIn.queue)) ∧
      st.pending.length ≤ maxTcpPending cfg ∧
      (st.halfClosed=true → ∃ before after, queuedItems t=before++.tcpClose id::after ∧
        .tcpClose id ∉ before ∧ bytesFor id before <+: acceptedBytes id t++st.pending)) ∧
    s.deferred.length≤1 := by
  have hok := uploadOk_of_run pkg cfg h
  refine ⟨fun id st hst => ?_,hok.deferred⟩
  have hordered := hok.ordered id st hst
  refine ⟨?_,?_,?_⟩
  · have hvalues := hordered.values_queued
    rw [uplink] at hvalues
    rw [values_tokens,values_tokens,waiting,bytesFor_append] at hvalues
    exact hvalues
  · rcases (handlesOk_of_run pkg cfg h).tcpSocket hst with ⟨sock,port,hsock⟩
    exact (pending_invariant pkg cfg).of_run h id st sock port hst hsock
  · intro hclosed
    rcases hordered with ⟨taken,hqueued,hvalues,hseen⟩
    have hmem : none∈tokens id (queuedItems t) := by
      change tokens id (queuedItems t)=_ at hqueued
      rw [hqueued]
      exact List.mem_append_left _ (hseen hclosed)
    rcases List.eq_append_cons_of_mem (mem_of_none_mem hmem) with ⟨before,after,hsplit,hfirst⟩
    refine ⟨before,after,hsplit,hfirst,?_⟩
    have htokens : tokens id (queuedItems t)=tokens id before++none::tokens id after := by
      rw [hsplit,tokens_append,tokens_cons,itemTokens,if_pos rfl,List.singleton_append]
    have hprefix := Stream.Ordered.before_close ⟨taken,hqueued,hvalues,hseen⟩ hclosed htokens
      fun hnone => hfirst (mem_of_none_mem hnone)
    rw [values_tokens] at hprefix
    exact hprefix

/-- The application has queued three bytes and the socket has taken two of them:
the third is pending. -/
theorem upload_in_order_partly : ∃ t, simMachine.Run always t
      (solo (opened [3]) ⟨.established,[],0⟩ (.empty 128) .selecting) ∧
    acceptedBytes 1 t=[1,2] ∧ queuedItems t=[.tcp 1 [1,2,3]] ∧
    bytesFor 1 (queuedItems t)=acceptedBytes 1 t++([3]++(bytesFor 1 []++bytesFor 1 [])) := by
  have hrun : simMachine.Run always _ (solo (opened [3]) ⟨.established,[],0⟩ (.empty 128) .selecting) :=
    (Machine.Run.start sim_start).replay passes_always
      (opening++queueing [1,2,3]++turn ⟨.established,[],2⟩ 2) rfl
  exact ⟨_,hrun,rfl,rfl,((upload_in_order simPackage simConfig hrun).1 1 (opened [3]) rfl).1⟩

end MsnGuard.NetstackUpload
