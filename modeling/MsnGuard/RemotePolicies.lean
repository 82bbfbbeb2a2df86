import MsnGuard.FiniteTables
import MsnGuard.JsonValues
import MsnGuard.TransitionRuns

/-!
# The remote policy and its cache

Four lists are fetched from the network. A list that a body does not give, or breaks, is filled
from the lists in force, and from the compiled ones where there are none yet. The body as it
came is kept in a file, the filled lists only in memory, so that a restart fills from the
compiled ones.
-/

namespace MsnGuard.RemotePolicies

open FiniteTables JsonValues KotlinText TransitionRuns Option
open RustText hiding trim isWhitespace

/-- An endpoint with the country it leaves in and the transports that may dial it. -/
structure ExitEndpoint where
  endpoint : Text
  country : Text
  transports : List Text
  deriving DecidableEq

/-- The lists in force. -/
structure Policy where
  edges : List Text
  geoBlocked : List Text
  sanctioned : List Text
  exitEndpoints : List ExitEndpoint
  deriving DecidableEq

/-- The lists that a body gives. -/
structure Given where
  edges : Option (List Text)
  geoBlocked : Option (List Text)
  sanctioned : Option (List Text)
  exitEndpoints : Option (List ExitEndpoint)

/-- The lists that are compiled in. -/
def builtin : Policy where
  edges := ["104.21.70.21","104.21.33.59","188.114.97.0","188.114.97.6"].map String.toList
  geoBlocked := ["www.nvidia.com","nvidia.com","images.nvidia.com","www.avast.com","avast.com",
    "www.android.com","android.com"].map String.toList
  sanctioned := []
  exitEndpoints := []

def maxEdges : ℕ := 24

def maxHosts : ℕ := 64

def maxSanctioned : ℕ := 64

def maxExitEndpoints : ℕ := 8

/-- How much of an array is looked at, for each entry that is kept at most. -/
def scanFactor : ℕ := 8

/-- The library that reads bodies and the case mappings of the platform. -/
structure Platform (τ : Type) where
  lib : Library τ
  table : CaseTable
  uppercase : Text → Text

section Validation

/-- One to three digits of ASCII. -/
def isShortNumber (s : Text) : Bool :=
  decide (1 ≤ s.length ∧ s.length≤3) && s.all fun c => decide ('0' ≤ c ∧ c ≤ '9')

/-- Four short numbers with full stops between them. -/
def isDottedQuad (s : Text) : Bool :=
  let parts := splitAny (· == '.') s
  decide (parts.length=4) && parts.all isShortNumber

/-- The number of an address. -/
def ipv4ToLong (address : Text) : Option ℕ :=
  let parts := splitAny (· == '.') address
  if parts.length≠4 then none
  else parts.foldlM (fun value part =>
    (toIntOrNull part).bind fun octet =>
      if 0≤octet ∧ octet≤255 then some (value*256+octet.toNat) else none) 0

/-- The first and the last number of a block of addresses. -/
def cidrToRange (cidr : Text) : Option (ℕ × ℕ) := do
  let (base,length) ← splitOnce '/' cidr
  let base ← ipv4ToLong base
  let bits ← toIntOrNull length
  if ¬(0≤bits ∧ bits≤32) then none
  else
    let size := 2^(32-bits.toNat)
    let first := base-base%size
    some (first,first+size-1)

/-- The published blocks of the content network. -/
def cfRanges : List (ℕ × ℕ) :=
  ["173.245.48.0/20","103.21.244.0/22","103.22.200.0/22","103.31.4.0/22","141.101.64.0/18",
    "108.162.192.0/18","190.93.240.0/20","188.114.96.0/20","197.234.240.0/22","198.41.128.0/17",
    "162.158.0.0/15","104.16.0.0/13","104.24.0.0/14","172.64.0.0/13","131.0.72.0/22"].filterMap
    fun cidr => cidrToRange cidr.toList

/-- Is the address one of the content network? -/
def isCloudflareAddress (address : Text) : Bool :=
  (ipv4ToLong address).any fun n => cfRanges.any fun range => range.1≤n && n≤range.2

/-- Can this be a host name? -/
def isHostname (value : Text) : Bool :=
  decide (4≤value.length ∧ value.length≤253) && value.contains '.' &&
    value.head? != some '.' && value.getLast? != some '.' &&
    value.head? != some '-' && value.getLast? != some '-' &&
    !containsText "..".toList value &&
    value.all fun c => decide ('a' ≤ c ∧ c ≤ 'z' ∨ '0' ≤ c ∧ c ≤ '9') || c == '.' || c == '-'

/-- Suffixes that no wildcard may stand before. -/
def wildcardDeny : List Text :=
  ["co.ir","ac.ir","org.ir","net.ir","gov.ir","id.ir","sch.ir","co.uk","org.uk","ac.uk","gov.uk",
    "com.au","com.br","com.cn","com.tr","com.mx","com.ar","co.jp","co.kr","co.in","co.za","co.nz",
    "com.sa","com.eg"].map String.toList

/-- The transports that an endpoint can be given to. -/
def warpTransports : List Text := ["MASQUE","WIREGUARD","GOOL","MIM"].map String.toList

/-- Keep the accepted entries of an array, up to a number of them; entries that are there already
are kept once if they are to be distinct. -/
def scan {α : Type} [DecidableEq α] (cap : ℕ) (distinct : Bool) (accept : Json → Option α) :
    List Json → List α → List α
  | [],out => out
  | j::rest,out =>
    match accept j with
    | none => scan cap distinct accept rest out
    | some a =>
      let out := if distinct && decide (a∈out) then out else out++[a]
      if cap≤out.length then out else scan cap distinct accept rest out

/-- The accepted entries of an array, nothing if none is left. -/
def validate {α : Type} [DecidableEq α] (cap : ℕ) (distinct : Bool) (accept : Json → Option α)
    (array : Option (List Json)) : Option (List α) :=
  array.bind fun items =>
    let out := scan cap distinct accept (items.take (cap*scanFactor)) []
    if out.isEmpty then none else some out

variable {τ : Type} (P : Platform τ)

def validateEdges : Option (List Json) → Option (List Text) :=
  validate maxEdges true fun j =>
    let value := trim (asString P.lib j)
    if value.isEmpty then none
    else if isDottedQuad value && isCloudflareAddress value then some value else none

def validateHosts : Option (List Json) → Option (List Text) :=
  validate maxHosts true fun j =>
    let value := toLowercase P.table (trim (asString P.lib j))
    if isHostname value then some value else none

def validateSanctioned : Option (List Json) → Option (List Text) :=
  validate maxSanctioned true fun j =>
    let raw := toLowercase P.table (trim (asString P.lib j))
    let wildcard := "*.".toList.isPrefixOf raw
    let host := if wildcard then raw.drop 2 else raw
    if raw.isEmpty || !isHostname host then none
    else if wildcard && (decide (host.count '.' < 1) || wildcardDeny.contains host) then none
    else some (if wildcard then "*.".toList++host else host)

/-- The parts of an endpoint before and behind its first colon. -/
def hostAndPort (endpoint : Text) : Text × Text :=
  let (host,port) := (splitOnce ':' endpoint).getD (endpoint,[])
  (trim host,trim port)

def validateExitEndpoints : Option (List Json) → Option (List ExitEndpoint) :=
  validate maxExitEndpoints false fun j =>
    match j with
    | .object entry =>
      let endpoint := trim (optString P.lib entry "endpoint".toList [])
      let (host,port) := hostAndPort endpoint
      let country := P.uppercase (trim (optString P.lib entry "country".toList []))
      let transports := ((optJSONArray entry "transports".toList).getD []).map fun t =>
        P.uppercase (trim (asString P.lib t))
      if host.isEmpty || port.isEmpty ||
          !(toIntOrNull port).any (fun n => decide (1≤n ∧ n≤65535)) ||
          !isDottedQuad host || decide (country.length≠2) ||
          !country.all (fun c => decide ('A' ≤ c ∧ c ≤ 'Z')) ||
          !transports.any (warpTransports.contains) then none
      else some ⟨endpoint,country,transports⟩
    | _ => none

/-- The lists that a body gives; nothing if it is no object or gives none. -/
def given (body : τ) : Option Given :=
  match P.lib.parse body with
  | some (.object root) =>
    let edges := validateEdges P (optJSONArray root "edges".toList)
    let hosts := validateHosts P (optJSONArray root "geoblocked".toList)
    let sanctioned := validateSanctioned P (optJSONArray root "sanctioned".toList)
    let exitEndpoints := validateExitEndpoints P (optJSONArray root "exit_endpoints".toList)
    if edges.isNone && hosts.isNone && sanctioned.isNone && exitEndpoints.isNone then none
    else some ⟨edges,hosts,sanctioned,exitEndpoints⟩
  | _ => none

end Validation

/-- The lists of a body where it gives them, those in force or compiled in elsewhere. -/
def fill (current : Option Policy) (g : Given) : Policy where
  edges := g.edges.getD (current.getD builtin).edges
  geoBlocked := g.geoBlocked.getD (current.getD builtin).geoBlocked
  sanctioned := g.sanctioned.getD (current.getD builtin).sanctioned
  exitEndpoints := g.exitEndpoints.getD (current.getD builtin).exitEndpoints

section Machine

variable {τ : Type} (P : Platform τ)

/-- `parse`: the lists of a body while others are in force. -/
def parse (current : Option Policy) (body : τ) : Option Policy := (given P body).map (fill current)

/-- How far a refresh has come. -/
inductive Refresh (τ : Type) where
  | idle
  | fetched (body : τ) (parsed : Policy)
  | renamed (parsed : Policy)

/-- How far a caller has come that found no lists in memory. -/
inductive Reader (τ : Type) where
  | missed
  | read (text : Option τ)
  | loaded (policy : Policy)

/-- What the server answers. -/
inductive Answer (τ : Type) where
  | notModified
  | status (code : ℕ)
  | body (text : τ)

/-- The lists in memory, the kept body, the refresh and the callers that read the file. -/
structure Node (τ : Type) where
  cached : Option Policy
  cacheFile : Option τ
  refresh : Refresh τ
  readers : Table (Reader τ)

/-- What `policy` reads from the file while nothing or something is in memory. -/
def readLists (current : Option Policy) (cacheFile : Option τ) : Policy :=
  (cacheFile.bind (parse P current)).getD builtin

/-- The lists that the next caller gets. -/
def Node.inForce (n : Node τ) : Policy := n.cached.getD (readLists P none n.cacheFile)

/-- The process begins with what is in the file. -/
def Node.restarted (n : Node τ) : Node τ := ⟨none,n.cacheFile,.idle,∅⟩

/-- A fetch with its answer, the replacement of the file, that of the memory; a caller that looks
at the memory, reads the file, takes its lists and stores them; the end of the process. -/
inductive Action (τ : Type) where
  | fetch (answer : Answer τ)
  | rename (succeeds : Bool)
  | publish
  | look (r : ℕ)
  | read (r : ℕ)
  | load (r : ℕ)
  | store (r : ℕ)
  | restart

/-- A restart with the lists in force before and after it. -/
inductive Event where
  | restarted (before after : Policy)

def exec (n : Node τ) : Action τ → Option (Node τ × List Event)
  | .fetch answer =>
    match n.refresh,answer with
    | .idle,.body text =>
      match parse P n.cached text with
      | none => some (n,[])
      | some parsed => some ({n with refresh := .fetched text parsed},[])
    | .idle,_ => some (n,[])
    | _,_ => none
  | .rename succeeds =>
    match n.refresh with
    | .fetched body parsed =>
      if succeeds then some ({n with cacheFile := some body,refresh := .renamed parsed},[])
      else some ({n with refresh := .idle},[])
    | _ => none
  | .publish =>
    match n.refresh with
    | .renamed parsed => some ({n with cached := some parsed,refresh := .idle},[])
    | _ => none
  | .look r =>
    if (n.readers.lookup r).isSome then none
    else if n.cached.isSome then some (n,[])
    else some ({n with readers := n.readers.insert r .missed},[])
  | .read r =>
    match n.readers.lookup r with
    | some .missed => some ({n with readers := n.readers.insert r (.read n.cacheFile)},[])
    | _ => none
  | .load r =>
    match n.readers.lookup r with
    | some (.read text) =>
      some ({n with readers := n.readers.insert r (.loaded (readLists P n.cached text))},[])
    | _ => none
  | .store r =>
    match n.readers.lookup r with
    | some (.loaded policy) =>
      some ({n with cached := some policy,readers := n.readers.erase r},[])
    | _ => none
  | .restart => some (n.restarted,[.restarted (n.inForce P) (n.restarted.inForce P)])

/-- The process from its first start on, without a kept body. -/
def machine : Machine (Node τ) (Action τ) Event where
  start n := n=⟨none,none,.idle,∅⟩
  allowed _ _ := True
  exec := exec P

/-- A restart finds the lists in force again. -/
def Recovered : Event → Prop
  | .restarted before after => after=before

/-- Gives a body every list that is in force with other entries than the compiled ones? -/
def covers (g : Given) (c : Policy) : Bool :=
  (g.edges.isSome || decide (c.edges=builtin.edges)) &&
    (g.geoBlocked.isSome || decide (c.geoBlocked=builtin.geoBlocked)) &&
    (g.sanctioned.isSome || decide (c.sanctioned=builtin.sanctioned)) &&
    (g.exitEndpoints.isSome || decide (c.exitEndpoints=builtin.exitEndpoints))

/-- What a step must not do: bring a body without a list that was changed before, replace the
file while a caller reads it, end the process between the two replacements. -/
def undisturbed (n : Node τ) : Action τ → Bool
  | .fetch (.body text) => (given P text).all fun g => n.cached.all (covers g)
  | .rename true => n.readers.entries.isEmpty
  | .restart =>
    match n.refresh with
    | .renamed _ => false
    | _ => true
  | _ => true

/-- What the runs keep: a refresh and the callers carry what the file gives on its own, and so does
the memory, except between the two replacements, when nobody reads the file. -/
structure Faithful (n : Node τ) : Prop where
  fetched : ∀ body parsed, n.refresh=.fetched body parsed → parse P none body=some parsed
  renamed : ∀ parsed, n.refresh=.renamed parsed → parsed=readLists P none n.cacheFile
  memory : ∀ c, n.cached=some c → c=readLists P none n.cacheFile ∨
    (∃ parsed, n.refresh=.renamed parsed) ∧ n.readers.entries=[]
  read : ∀ r text, n.readers.lookup r=some (.read text) → text=n.cacheFile
  loaded : ∀ r q, n.readers.lookup r=some (.loaded q) → q=readLists P none n.cacheFile

end Machine

section Filling

variable {τ : Type} {P : Platform τ}

/-- A list that is as compiled in need not be given. -/
theorem getD_of_covered {α : Type} [DecidableEq α] {given : Option α} {current compiled : α}
    (h : (given.isSome || decide (current=compiled))=true) :
    given.getD current=given.getD compiled := by
  cases given with
  | none => simpa using h
  | some a => rfl

/-- Lists that a body covers do not show in what it is filled to. -/
theorem fill_of_covers {g : Given} {c : Policy} (h : covers g c=true) :
    fill (some c) g=fill none g := by
  simp only [covers,Bool.and_eq_true] at h
  obtain ⟨⟨⟨hedges,hhosts⟩,hsanctioned⟩,hexits⟩ := h
  simp only [fill,getD_some,getD_none,getD_of_covered hedges,
    getD_of_covered hhosts,getD_of_covered hsanctioned,getD_of_covered hexits]

/-- What a body was filled to it is filled to again. -/
theorem fill_fill (current : Option Policy) (g : Given) : fill (some (fill current g)) g=
    fill current g := by
  have hself : ∀ {α : Type} (o : Option α) (a : α), o.getD (o.getD a)=o.getD a := by
    intro α o a
    cases o <;> rfl
  simp only [fill,getD_some,hself]

/-- A body that covers the lists in force is read as on its own. -/
theorem parse_of_covers {current : Option Policy} {text : τ}
    (h : ((given P text).all fun g => current.all (covers g))=true) :
    parse P current text=parse P none text := by
  unfold parse
  cases hgiven : given P text with
  | none => rfl
  | some g =>
    cases current with
    | none => rfl
    | some c =>
      rw [hgiven] at h
      rw [map_some,map_some,fill_of_covers h]

/-- A file that is read while its own lists are in force gives them again. -/
theorem readLists_again (file : Option τ) :
    readLists P (some (readLists P none file)) file=readLists P none file := by
  cases file with
  | none => rfl
  | some text =>
    simp only [readLists,bind_some,parse]
    cases given P text with
    | none => rfl
    | some g => simp only [map_some,getD_some,fill_fill]

end Filling

section Runs

variable {τ : Type} {P : Platform τ}
variable {c : Policy} {r : ℕ} {new : List Event}

variable {n : Node τ}

/-- Outside of a replacement the memory holds nothing else than the file gives. -/
theorem Faithful.memory_of_refresh (h : Faithful P n)
    (hrefresh : ∀ parsed, n.refresh≠.renamed parsed) (hc : n.cached=some c) :
    c=readLists P none n.cacheFile := by
  rcases h.memory c hc with heq | ⟨⟨parsed,hparsed⟩,-⟩
  · exact heq
  · exact absurd hparsed (hrefresh parsed)

/-- Outside of a replacement the lists in force are those of the file. -/
theorem Faithful.inForce_eq (h : Faithful P n) (hrefresh : ∀ parsed, n.refresh≠.renamed parsed) :
    n.inForce P=readLists P none n.cacheFile := by
  unfold Node.inForce
  cases hcached : n.cached with
  | none => rfl
  | some c => exact h.memory_of_refresh hrefresh hcached

/-- While somebody reads the file, the memory holds nothing else than it gives. -/
theorem Faithful.memory_of_reader (h : Faithful P n) {reader : Reader τ}
    (hreader : n.readers.lookup r=some reader) (hc : n.cached=some c) :
    c=readLists P none n.cacheFile := by
  rcases h.memory c hc with heq | ⟨-,hnil⟩
  · exact heq
  · have hempty : n.readers=∅ := AList.ext hnil
    rw [hempty,AList.lookup_empty] at hreader
    cases hreader

variable {n' : Node τ}

theorem Faithful.fetch {answer : Answer τ} (h : Faithful P n)
    (hcond : undisturbed P n (.fetch answer)=true)
    (he : exec P n (.fetch answer)=some (n',new)) : Faithful P n' ∧ new=[] := by
  simp only [exec] at he
  split at he
  case h_1 text hidle =>
    split at he
    case h_1 =>
      cases he
      exact ⟨h,rfl⟩
    case h_2 parsed hparse =>
      cases he
      rw [parse_of_covers hcond] at hparse
      refine ⟨⟨?_,by simp,?_,h.read,h.loaded⟩,rfl⟩
      · intro body parsed' heq
        cases heq
        exact hparse
      · intro c hc
        exact .inl (h.memory_of_refresh (by simp [hidle]) hc)
  case h_2 =>
    cases he
    exact ⟨h,rfl⟩
  case h_3 => cases he

theorem Faithful.rename {succeeds : Bool} (h : Faithful P n)
    (hcond : undisturbed P n (.rename succeeds)=true)
    (he : exec P n (.rename succeeds)=some (n',new)) : Faithful P n' ∧ new=[] := by
  simp only [exec] at he
  split at he
  case h_1 body parsed hfetched =>
    cases succeeds with
    | true =>
      cases he
      have hnil : n.readers.entries=[] := List.isEmpty_iff.mp hcond
      have hempty : n.readers=∅ := AList.ext hnil
      refine ⟨⟨by simp,?_,fun c _ => .inr ⟨⟨parsed,rfl⟩,hnil⟩,?_,?_⟩,rfl⟩
      · intro parsed' heq
        cases heq
        simp only [readLists,bind_some,h.fetched body parsed hfetched,getD_some]
      · intro r text hlook
        simp [hempty] at hlook
      · intro r q hlook
        simp [hempty] at hlook
    | false =>
      cases he
      refine ⟨⟨by simp,by simp,?_,h.read,h.loaded⟩,rfl⟩
      intro c hc
      exact .inl (h.memory_of_refresh (by simp [hfetched]) hc)
  case h_2 => cases he

theorem Faithful.publish (h : Faithful P n) (he : exec P n .publish=some (n',new)) :
    Faithful P n' ∧ new=[] := by
  simp only [exec] at he
  split at he
  case h_1 parsed hrenamed =>
    cases he
    refine ⟨⟨by simp,by simp,?_,h.read,h.loaded⟩,rfl⟩
    intro c hc
    cases hc
    exact .inl (h.renamed _ hrenamed)
  case h_2 => cases he

/-- The table of the callers changes at one place, to what the file gives. -/
theorem Faithful.insert {n : Node τ} (h : Faithful P n) {r : ℕ} {reader : Reader τ}
    (hmemory : ∀ c, n.cached=some c → c=readLists P none n.cacheFile)
    (hread : ∀ text, reader=.read text → text=n.cacheFile)
    (hloaded : ∀ q, reader=.loaded q → q=readLists P none n.cacheFile) :
    Faithful P {n with readers := n.readers.insert r reader} := by
  refine ⟨h.fetched,h.renamed,fun c hc => .inl (hmemory c hc),?_,?_⟩
  · intro r' text hlook
    rcases lookup_of_insert hlook with ⟨-,heq⟩ | ⟨-,hold⟩
    · exact hread text heq.symm
    · exact h.read r' text hold
  · intro r' q hlook
    rcases lookup_of_insert hlook with ⟨-,heq⟩ | ⟨-,hold⟩
    · exact hloaded q heq.symm
    · exact h.loaded r' q hold

theorem Faithful.look (h : Faithful P n) (he : exec P n (.look r)=some (n',new)) :
    Faithful P n' ∧ new=[] := by
  simp only [exec] at he
  split at he
  · cases he
  · split at he
    · cases he
      exact ⟨h,rfl⟩
    · rename_i hnone
      cases he
      refine ⟨h.insert ?_ (by simp) (by simp),rfl⟩
      intro c hc
      simp [hc] at hnone

theorem Faithful.readFile (h : Faithful P n) (he : exec P n (.read r)=some (n',new)) :
    Faithful P n' ∧ new=[] := by
  simp only [exec] at he
  split at he
  case h_1 hmissed =>
    cases he
    refine ⟨h.insert (fun c => h.memory_of_reader hmissed) ?_ (by simp),rfl⟩
    intro text heq
    cases heq
    rfl
  case h_2 => cases he

theorem Faithful.load (h : Faithful P n) (he : exec P n (.load r)=some (n',new)) :
    Faithful P n' ∧ new=[] := by
  simp only [exec] at he
  split at he
  case h_1 text hreader =>
    cases he
    refine ⟨h.insert (fun c => h.memory_of_reader hreader) (by simp) ?_,rfl⟩
    intro q heq
    cases heq
    rw [h.read r text hreader]
    cases hcached : n.cached with
    | none => rfl
    | some c => rw [h.memory_of_reader hreader hcached,readLists_again]
  case h_2 => cases he

theorem Faithful.store (h : Faithful P n) (he : exec P n (.store r)=some (n',new)) :
    Faithful P n' ∧ new=[] := by
  simp only [exec] at he
  split at he
  case h_1 q hreader =>
    cases he
    refine ⟨⟨h.fetched,h.renamed,?_,fun r' text hlook => h.read r' text (lookup_of_erase hlook),
      fun r' q' hlook => h.loaded r' q' (lookup_of_erase hlook)⟩,rfl⟩
    intro c hc
    cases hc
    exact .inl (h.loaded r _ hreader)
  case h_2 => cases he

/-- A process that begins carries nothing yet. -/
theorem faithful_restarted (n : Node τ) : Faithful P n.restarted :=
  ⟨by simp [Node.restarted],by simp [Node.restarted],by simp [Node.restarted],
    by simp [Node.restarted],by simp [Node.restarted]⟩

/-- One step keeps the file's lists in force, and a restart finds them. -/
theorem Faithful.step {n n' : Node τ} {a : Action τ} {new : List Event} (h : Faithful P n)
    (hcond : undisturbed P n a=true) (he : exec P n a=some (n',new)) :
    Faithful P n' ∧ ∀ e∈new, Recovered e := by
  have quiet : Faithful P n' ∧ new=[] → Faithful P n' ∧ ∀ e∈new, Recovered e := by
    rintro ⟨hkept,rfl⟩
    exact ⟨hkept,by simp⟩
  cases a with
  | fetch answer => exact quiet (h.fetch hcond he)
  | rename succeeds => exact quiet (h.rename hcond he)
  | publish => exact quiet (h.publish he)
  | look r => exact quiet (h.look he)
  | read r => exact quiet (h.readFile he)
  | load r => exact quiet (h.load he)
  | store r => exact quiet (h.store he)
  | restart =>
    have hrefresh : ∀ parsed, n.refresh≠.renamed parsed := by
      intro parsed heq
      simp [undisturbed,heq] at hcond
    simp only [exec,some.injEq,Prod.mk.injEq] at he
    obtain ⟨rfl,rfl⟩ := he
    refine ⟨faithful_restarted n,?_⟩
    intro e hmem
    rw [List.mem_singleton.mp hmem]
    exact (h.inForce_eq hrefresh).symm

/-- In a run in which every body gives the lists that were changed before, nobody reads the file
while it is replaced and the process does not end between the two replacements, every restart
finds the lists that were in force. -/
theorem run_restarts_recover (P : Platform τ) {t : List Event} {n : Node τ}
    (h : (machine P).Run (fun _ n a => undisturbed P n a=true) t n) : ∀ e∈t, Recovered e := by
  refine (h.safe (Faithful P) Recovered ?_ ?_).2
  · rintro n rfl
    exact faithful_restarted ⟨none,none,.idle,∅⟩
  · intro t n a n' new hinv _ hcond he
    exact hinv.step hcond he

/-- Trees as bodies, with the case mappings of ASCII. -/
def treePlatform : Platform Json := ⟨.ofTrees,.plain,asciiUpper⟩

/-- A body with one list of one entry. -/
def bodyWith (name entry : String) : Json :=
  .object [(name.toList,.array [.string entry.toList])]

/-- A refresh that brings a body in. -/
def bringIn (body : Json) : List (Action Json) := [.fetch (.body body),.rename true,.publish]

/-- A caller that reads the file. -/
def consult (r : ℕ) : List (Action Json) := [.look r,.read r,.load r,.store r]

/-- A body changes the first list, and the restart behind it finds the change in the file. -/
theorem run_recovers_edges : ∃ t n,
    (machine treePlatform).Run (fun _ n a => undisturbed treePlatform n a=true) t n ∧
      n.cached=some {builtin with edges := ["104.21.70.22".toList]} ∧ t.length=1 ∧
      ∀ e∈t, Recovered e := by
  obtain ⟨t,n,hrun,hcached,hlength⟩ : ∃ t n,
      (machine treePlatform).Run (fun _ n a => undisturbed treePlatform n a=true) t n ∧
        n.cached=some {builtin with edges := ["104.21.70.22".toList]} ∧ t.length=1 :=
    Machine.exists_run (undisturbed treePlatform) (fun _ _ _ h => ⟨trivial,h⟩) rfl
      (consult 0++bringIn (bodyWith "edges" "104.21.70.22")++[.restart]++consult 1)
      (by decide +kernel)
  exact ⟨t,n,hrun,hcached,hlength,run_restarts_recover treePlatform hrun⟩

/-- One body adds a name to the third list, the next gives the first list alone. The name is kept
in force until the process ends, and is gone behind it. -/
theorem restart_loses_list : ∃ t n before after, (machine treePlatform).Run always t n ∧
    Event.restarted before after∈t ∧ before.sanctioned=["claude.ai".toList] ∧
      after.sanctioned=[] ∧ after.edges=before.edges := by
  obtain ⟨t,n,hrun,hfound⟩ : ∃ t n, (machine treePlatform).Run always t n ∧ t.any (fun
        | .restarted before after => decide (before.sanctioned=["claude.ai".toList] ∧
          after.sanctioned=[] ∧ after.edges=before.edges))=true :=
    Machine.exists_run (fun _ _ => true) (fun _ _ _ _ => ⟨trivial,trivial⟩) rfl
      (bringIn (bodyWith "sanctioned" "claude.ai") ++
        bringIn (bodyWith "edges" "104.21.70.22")++[.restart]) (by decide +kernel)
  obtain ⟨⟨before,after⟩,hmem,hlists⟩ := List.any_eq_true.mp hfound
  exact ⟨t,n,before,after,hrun,hmem,of_decide_eq_true hlists⟩

end Runs

end MsnGuard.RemotePolicies
