import MsnGuard.SocksDelivery

/-!
# Who looks up the name of a request

A client may name a host instead of giving its address, and then only the far side is to look
the name up. The front for DNS looks it up all the same, two others look it up to write the
request anew, and the last one looks up only what has the shape of an address.
-/

namespace MsnGuard.SocksLookups

open RustText IpAddresses SocksFronts SocksDelivery List

/-- Does the listener greet? -/
def greeted (upstream : Option Bytes) : Bool :=
  upstream.any fun bytes => bytes[0]? == some 5 && bytes[1]? == some 0

/-- When a front does not look a name up. -/
def keepsName (f : Front) (upstream : Option Bytes) (name : Text) : Bool :=
  match f with
  | .smartDns => false
  | .warp => !greeted upstream
  | .shard => !greeted upstream
  | .tor => !(greeted upstream && isIpLiteral name)

section Names

variable {p : Platform} {name : Text}

theorem getByName_of_name (h : p.literal name=none) : p.getByName name=(p.resolve name,[name]) := by
  rw [Platform.getByName,h]

/-- A name is not the text of an address. -/
theorem name_ne_ipv4Text (h : p.literal name=none) (a : Ipv4Addr) : name≠ipv4Text a := by
  rintro rfl
  rw [p.literal_ipv4 a] at h
  cases h

theorem name_ne_resolverHost (h : p.literal name=none) : name≠SmartDnsFront.resolverHost := by
  have htext : SmartDnsFront.resolverHost=ipv4Text (ipv4OfOctets 10 10 14 2) := by
    decide +kernel
  rw [htext]
  exact name_ne_ipv4Text h _

theorem name_ne_udpgwHost (h : p.literal name=none) : name≠udpgwHost := by
  have htext : udpgwHost=ipv4Text (ipv4OfOctets 127 0 0 1) := by decide +kernel
  rw [htext]
  exact name_ne_ipv4Text h _

/-- A relay looks up what it needs for the request, once the listener has greeted. -/
theorem relay_lookups (build : Builder) (skip : Source → Option Source) (p : Platform)
    (upstream : Option Bytes) (host : Text) (port : ℕ) (s : Source) :
    (relay build skip p upstream host port s).lookups=
      if greeted upstream then (build p 1 host port).2 else [] := by
  unfold relay
  cases upstream with
  | none => rfl
  | some bytes =>
    have hpending : (⟨bytes,[]⟩ : Source).pending=bytes := append_nil bytes
    have hgreeted : greeted (some bytes)=true ↔ bytes[0]?=some 5 ∧ bytes[1]?=some 0 := by
      simp [greeted]
    simp only [read_eq ⟨bytes,[]⟩,read_advance_eq,hpending]
    by_cases hgreets : greeted (some bytes)=true
    · rw [if_pos hgreets,if_neg (by tauto)]
      split
      · rfl
      · split <;> rfl
    · rw [if_neg hgreets,if_pos (by tauto)]

/-- A front with a gateway relays every request for a name. -/
theorem answerWithGateway_lookups (refusal : UInt8) (build : Builder)
    (skip : Source → Option Source) (upstream : Option Bytes) (port : ℕ) (s : Source)
    (h : p.literal name=none) :
    (answerWithGateway refusal build skip p upstream ⟨some 1,.domain name,port⟩ s).lookups=
      if greeted upstream then (build p 1 name port).2 else [] := by
  rw [answerWithGateway,if_neg (by simp),if_neg fun hudpgw => name_ne_udpgwHost h hudpgw.1]
  exact relay_lookups ..

/-- The front for DNS looks every name up. -/
theorem connect_lookups (upstream : Option Bytes) (port : ℕ) (s : Source)
    (h : p.literal name=none) : name∈(SmartDnsFront.connect p upstream name port s).lookups := by
  have hdirect : (SmartDnsFront.isDirect p name).2=[name] := by
    rw [SmartDnsFront.isDirect,getByName_of_name h]
  simp only [SmartDnsFront.connect]
  split
  · rename_i hdns
    rw [SmartDnsFront.forDns,if_neg (name_ne_resolverHost h)] at hdns ⊢
    split at hdns
    · rename_i hport
      rw [if_pos hport,hdirect]
      exact mem_singleton.mpr rfl
    · cases hdns
  · split
    · rw [hdirect]
      exact mem_append_right _ (mem_singleton.mpr rfl)
    · rw [hdirect]
      exact mem_append_left _ (mem_append_right _ (mem_singleton.mpr rfl))

/-- What a request for a name looks up, in every front. -/
theorem answer_lookups (f : Front) (upstream : Option Bytes) (port : ℕ) (s : Source)
    (h : p.literal name=none) :
    name ∉ (f.answer p upstream ⟨some 1,.domain name,port⟩ s).lookups ↔
      keepsName f upstream name=true := by
  cases f with
  | smartDns =>
    refine iff_of_false (not_not_intro ?_) (by simp [keepsName])
    exact connect_lookups upstream port s h
  | warp =>
    rw [Front.answer,WarpUdpgwFront.answer,answerWithGateway_lookups _ _ _ _ _ _ h]
    simp only [WarpUdpgwFront.buildRequest,getByName_of_name h,keepsName]
    cases greeted upstream <;> simp
  | shard =>
    rw [Front.answer,ShardSocksFront.answer,answerWithGateway_lookups _ _ _ _ _ _ h]
    simp only [ShardSocksFront.buildRequest,SmartDnsFront.buildRequest,getByName_of_name h,
      keepsName]
    cases greeted upstream <;> simp
  | tor =>
    rw [Front.answer,TorSocksFront.answer,answerWithGateway_lookups _ _ _ _ _ _ h]
    simp only [TorSocksFront.buildRequest,getByName_of_name h,keepsName]
    cases greeted upstream <;> cases isIpLiteral name <;> simp

end Names

/-- The front for DNS always looks up the name of a request. Two of the others do so once the
listener greets, and the last one then looks up a name with the shape of an address. -/
theorem not_looked_up_iff (f : Front) (p : Platform) (upstream : Option Bytes)
    (pieces : List Bytes) (name : Text) (port : ℕ) (s : Source)
    (hrequest : f.handshake ⟨[],pieces⟩=.ok (⟨some 1,.domain name,port⟩,s))
    (hname : p.literal name=none) :
    name ∉ (f.handleClient p upstream pieces).lookups ↔ keepsName f upstream name=true := by
  rw [Front.handleClient,hrequest]
  exact answer_lookups f upstream port s hname

/-- One front hands a name on as it is. -/
theorem not_looked_up_tor :
    ∃ pieces upstream name, pieces=[[5,1,0],[5,1,0,3,3,97,46,98,1,187]] ∧
      upstream=some [5,0,5,0,0,1,0,0,0,0,0,0] ∧ name = "a.b".toList ∧
      plainPlatform.literal name=none ∧
      name ∉ (Front.tor.handleClient plainPlatform upstream pieces).lookups := by
  refine ⟨_,_,_,rfl,rfl,rfl,by decide +kernel,?_⟩
  obtain ⟨s,hs⟩ : ∃ s, Front.tor.handshake ⟨[],[[5,1,0],[5,1,0,3,3,97,46,98,1,187]]⟩=
      .ok (⟨some 1,.domain "a.b".toList,443⟩,s) := ⟨⟨[],[]⟩,by rfl⟩
  exact (not_looked_up_iff .tor plainPlatform (some [5,0,5,0,0,1,0,0,0,0,0,0]) _ _ _ s hs
    (by decide +kernel)).mpr (by decide +kernel)

/-- Three fronts look a name up before they hand it on, and the last one looks up four numbers
that are no address. -/
theorem looked_up :
    ∃ upstream, upstream=some [5,0,5,0,0,1,0,0,0,0,0,0] ∧ plainPlatform.literal "a.b".toList=none ∧
      plainPlatform.literal "1.1.1.999".toList=none ∧
      (∀ f : Front, f≠.tor → "a.b".toList∈(f.handleClient plainPlatform upstream
        [[5,1,0],[5,1,0,3,3,97,46,98,1,187]]).lookups) ∧
      "1.1.1.999".toList∈(Front.tor.handleClient plainPlatform upstream
        [[5,1,0],[5,1,0,3,9,49,46,49,46,49,46,57,57,57,1,187]]).lookups := by
  refine ⟨_,rfl,by decide +kernel,by decide +kernel,fun f hf => ?_,by decide +kernel⟩
  cases f with
  | smartDns | warp | shard => decide +kernel
  | tor => exact absurd rfl hf

end MsnGuard.SocksLookups
