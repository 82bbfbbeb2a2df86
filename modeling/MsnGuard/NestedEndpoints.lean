import MsnGuard.AetherVariables
import MsnGuard.IpAddresses

/-!
# The endpoints of nested sessions

The hops of a nested session are given their edges by a variable each, by a list for both and,
for WARP in WARP, by the forced peer of a single session. A hop follows the strongest source
that names it, and the hops never share an address.
-/

namespace MsnGuard.NestedEndpoints

open RustText IpAddresses AetherVariables

/-- The endpoints that are set. -/
structure WiwEndpoints where
  /-- The endpoint of the outer hop. -/
  outer : Option SocketAddr
  /-- The endpoint of the inner hop. -/
  inner : Option SocketAddr
  deriving DecidableEq

/-- Why endpoints are refused. -/
inductive EndpointError where
  /-- the two hops need separate edges, but both point at an address -/
  | sameEdge (ip : IpAddr)
  /-- the text carries no port, and the port is required; write it out, as in the sample -/
  | noPort (text : Text) (sample : SocketAddr)
  /-- the text is not an endpoint; write an address and a port together -/
  | notEndpoint (text : Text)
  /-- no endpoint was given; expected one or two addresses -/
  | noneGiven
  /-- warp-in-warp has two hops, but another number of addresses was given -/
  | wrongCount (found : ℕ)
  deriving DecidableEq

def WiwEndpoints.checked (e : WiwEndpoints) : Except EndpointError WiwEndpoints :=
  match e.outer,e.inner with
  | some outer,some inner => if outer.ip=inner.ip then .error (.sameEdge outer.ip) else .ok e
  | _,_ => .ok e

def WG_EXAMPLE_PORT : ℕ := 2408

/-- The address of a text without a port, in brackets or not. -/
def portless (text : Text) : Option IpAddr :=
  (parseIpAddr text).or (((stripPrefix ['['] text).bind fun rest =>
    if rest.getLast?=some ']' then some rest.dropLast else none).bind parseIpAddr)

def parseEndpoint (raw : Text) : Except EndpointError SocketAddr :=
  let text := trim raw
  match parseSocketAddr text with
  | some peer => .ok peer
  | none =>
    match portless text with
    | some address => .error (.noPort text ⟨address,WG_EXAMPLE_PORT⟩)
    | none => .error (.notEndpoint text)

def parseEndpointList (raw : Text) : Except EndpointError (List SocketAddr) := do
  let parts := (splitAny (fun c => decide (c∈[',',';',' '])) raw).filter fun part => trim part≠[]
  let peers ← parts.mapM parseEndpoint
  match peers.length with
  | 0 => .error .noneGiven
  | 1 | 2 => .ok peers
  | found => .error (.wrongCount found)

section Sources

variable (table : CaseTable) (lookup : Var → Option Text)

def scanKeyword (value : Text) : Bool :=
  decide (toLowercase table value∈
    ["auto".toList,"scan".toList,"none".toList,"off".toList,"0".toList])

/-- The endpoints of the list variable; a word that asks for a scan lists none. -/
def listEndpoints (key : Var) : Except EndpointError (List SocketAddr) :=
  match lookup key with
  | some list => if scanKeyword table list then .ok [] else parseEndpointList list
  | none => .ok []

/-- The endpoint of a hop after its own variable, by what it was before. -/
def setHop (key : Var) (before : Option SocketAddr) : Except EndpointError (Option SocketAddr) :=
  match lookup key with
  | some value => (parseEndpoint value).map some
  | none => .ok before

def nestedEndpointsOf (listKey outerKey innerKey : Var) : Except EndpointError WiwEndpoints := do
  let peers ← listEndpoints table lookup listKey
  let outer ← setHop lookup outerKey peers[0]?
  let inner ← setHop lookup innerKey peers[1]?
  WiwEndpoints.checked ⟨outer,inner⟩

def wiwEndpointsOf : Except EndpointError WiwEndpoints :=
  nestedEndpointsOf table lookup .wiwPeers .wiwOuterPeer .wiwInnerPeer

def mimEndpointsOf : Except EndpointError WiwEndpoints :=
  nestedEndpointsOf table lookup (.other "MIM_PEERS".toList) (.other "MIM_OUTER_PEER".toList)
    .mimInnerPeer

def wiwEndpointsWithFallback : Except EndpointError WiwEndpoints := do
  let chosen ← wiwEndpointsOf table lookup
  if chosen.outer.isSome then return chosen
  match (lookup .wgPeer).or (lookup .peer) with
  | none => return chosen
  | some forced =>
    let peers ← parseEndpointList forced
    WiwEndpoints.checked ⟨peers[0]?,chosen.inner.or peers[1]?⟩

/-- What a hop's own variable names. -/
def own (key : Var) : Option SocketAddr :=
  (lookup key).bind fun value => (parseEndpoint value).toOption

/-- What the list variable names. -/
def listed (key : Var) : List SocketAddr := (listEndpoints table lookup key).toOption.getD []

/-- What the forced peer of a single session names. -/
def forcedPeers : List SocketAddr :=
  (((lookup .wgPeer).or (lookup .peer)).bind fun v => (parseEndpointList v).toOption).getD []

/-- The endpoints follow their sources. -/
structure Settled (listKey outerKey innerKey : Var) (forced : List SocketAddr)
    (e : WiwEndpoints) : Prop where
  /-- Two endpoints have different addresses. -/
  separate : ∀ a b, e.outer=some a → e.inner=some b → a.ip≠b.ip
  /-- A variable that is set names an endpoint. -/
  set : ∀ key∈[outerKey,innerKey], (own lookup key).isSome=(lookup key).isSome
  /-- The list is read, or is not there. -/
  list : listEndpoints table lookup listKey=.ok (listed table lookup listKey)
  /-- The own variable comes first, then the list, then the forced peers. -/
  outer : e.outer=(own lookup outerKey).or ((listed table lookup listKey)[0]?.or forced[0]?)
  /-- So for the inner hop, which takes a forced peer only together with the outer one. -/
  inner : e.inner=(own lookup innerKey).or ((listed table lookup listKey)[1]?.or
    (if ((own lookup outerKey).or (listed table lookup listKey)[0]?).isSome then none
      else forced[1]?))

variable {table lookup} {e e' : WiwEndpoints}

/-- The second of two fallible steps needs the first. -/
theorem exists_of_bind {α β : Type} {x : Except EndpointError α} {f : α → Except EndpointError β}
    {b : β} (h : (x >>= f)=.ok b) : ∃ a, x=.ok a ∧ f a=.ok b := by
  cases x with
  | error e => cases h
  | ok a => exact ⟨a,rfl,h⟩

theorem checked_ok (h : e.checked=.ok e') :
    e'=e ∧ ∀ a b, e.outer=some a → e.inner=some b → a.ip≠b.ip := by
  unfold WiwEndpoints.checked at h
  split at h
  · rename_i houter hinner
    split at h
    · cases h
    · rename_i hne
      cases h
      refine ⟨rfl,fun a b ha hb => ?_⟩
      cases houter.symm.trans ha
      cases hinner.symm.trans hb
      exact hne
  · rename_i hmiss
    cases h
    exact ⟨rfl,fun a b ha hb => absurd hb (hmiss a b ha)⟩

theorem setHop_ok {key : Var} {before hop : Option SocketAddr}
    (h : setHop lookup key before=.ok hop) :
    (own lookup key).isSome=(lookup key).isSome ∧ hop=(own lookup key).or before := by
  unfold setHop at h
  cases hset : lookup key with
  | none =>
    rw [hset] at h
    cases h
    simp [own,hset]
  | some value =>
    rw [hset] at h
    change (parseEndpoint value).map some=.ok hop at h
    cases hread : parseEndpoint value with
    | error _ =>
      rw [hread] at h
      cases h
    | ok peer =>
      rw [hread] at h
      cases h
      simp [own,hset,hread,Except.toOption]

/-- Without forced peers the endpoints follow the variables. -/
theorem nested_settled {listKey outerKey innerKey : Var}
    (h : nestedEndpointsOf table lookup listKey outerKey innerKey=.ok e) :
    Settled table lookup listKey outerKey innerKey [] e := by
  obtain ⟨peers,hlist,h⟩ := exists_of_bind h
  obtain ⟨outer,houter,h⟩ := exists_of_bind h
  obtain ⟨inner,hinner,h⟩ := exists_of_bind h
  have hpeers : listed table lookup listKey=peers := by rw [listed,hlist]; rfl
  obtain ⟨rfl,hseparate⟩ := checked_ok h
  obtain ⟨hset,rfl⟩ := setHop_ok houter
  obtain ⟨hset',rfl⟩ := setHop_ok hinner
  exact {
    separate := hseparate
    set := by simp [hset,hset']
    list := hpeers.symm ▸ hlist
    outer := by simp [hpeers]
    inner := by simp [hpeers] }

end Sources

/-- Whatever the environment holds, endpoints that are accepted follow their sources: two
hops have different addresses, a hop's own variable wins over the list, the list over the
forced peer, and the forced peer replaces no hop that was set. -/
theorem endpoints_settled (table : CaseTable) (lookup : Var → Option Text) (e : WiwEndpoints) :
    (wiwEndpointsWithFallback table lookup=.ok e → Settled table lookup .wiwPeers .wiwOuterPeer
      .wiwInnerPeer (forcedPeers lookup) e) ∧
    (mimEndpointsOf table lookup=.ok e → Settled table lookup (.other "MIM_PEERS".toList)
      (.other "MIM_OUTER_PEER".toList) .mimInnerPeer [] e) := by
  refine ⟨fun h => ?_,nested_settled⟩
  obtain ⟨chosen,hchosen,h⟩ := exists_of_bind h
  have hsettled := nested_settled hchosen
  have houter : chosen.outer=
      (own lookup .wiwOuterPeer).or (listed table lookup .wiwPeers)[0]? := by
    simpa using hsettled.outer
  have hinner : chosen.inner=
      (own lookup .wiwInnerPeer).or (listed table lookup .wiwPeers)[1]? := by
    simpa using hsettled.inner
  by_cases hset : chosen.outer.isSome
  · -- The fallback is not looked at.
    rw [if_pos hset] at h
    cases h
    exact {hsettled with
      outer := by rw [←Option.or_assoc,←houter,Option.or_of_isSome hset]
      inner := by rw [←houter,if_pos hset,Option.or_none,hinner] }
  rw [if_neg hset] at h
  rw [Option.not_isSome_iff_eq_none] at hset
  cases hforced : (lookup .wgPeer).or (lookup .peer) with
  | none =>
    rw [hforced] at h
    cases h
    have hnone : forcedPeers lookup=[] := by rw [forcedPeers,hforced]; rfl
    rw [hnone]
    exact hsettled
  | some forced =>
    rw [hforced] at h
    obtain ⟨peers,hpeers,h⟩ := exists_of_bind h
    have hlist : forcedPeers lookup=peers := by rw [forcedPeers,hforced]; simp [hpeers,Except.toOption]
    obtain ⟨rfl,hseparate⟩ := checked_ok h
    exact {hsettled with
      separate := hseparate
      outer := by rw [←Option.or_assoc,←houter,hset,hlist]; rfl
      inner := by rw [←houter,hset,if_neg (by simp),←Option.or_assoc,←hinner,hlist] }

/-- An environment with a list, an own variable for the outer hop and a forced peer. -/
def threeSources : Var → Option Text
  | .wiwPeers => some "162.159.192.1:2408,[2606:4700:d0::a29f:c001]:500".toList
  | .wiwOuterPeer => some "188.114.96.1:890".toList
  | .wgPeer => some "162.159.195.1:1701".toList
  | _ => none

theorem own_variable_first : Settled .plain threeSources .wiwPeers .wiwOuterPeer .wiwInnerPeer
    (forcedPeers threeSources) ⟨some ⟨.v4 (ipv4OfOctets 188 114 96 1),890⟩,
      some ⟨.v6 (ipv6OfGroups [0x2606,0x4700,0xd0,0,0,0,0xa29f,0xc001]),500⟩⟩ :=
  (endpoints_settled _ _ _).1 (by decide +kernel)

end MsnGuard.NestedEndpoints
