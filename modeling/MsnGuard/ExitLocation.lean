import MsnGuard.IpAddresses

/-!
# The exit location policy

Before a tunnel is handed to clients, the `loc` line of a trace page names the country of its
exit. The check of the policy takes a missing location for the empty text, so a list of
countries to avoid lets it pass.
-/

namespace MsnGuard.ExitLocation

open RustText IpAddresses List

/-- A letter of the ASCII alphabet. -/
def isAsciiAlphabetic (c : Char) : Bool :=
  let n := c.toNat
  (65≤n && n≤90) || (97≤n && n≤122)

/-- A code of two letters, as a country has. -/
def TwoLetters (code : Text) : Prop := utf8Len code=2 ∧ code.all isAsciiAlphabetic=true

instance (code : Text) : Decidable (TwoLetters code) := inferInstanceAs (Decidable (_ ∧ _))

/-- Which exits are wanted. Only one of the two lists is ever used. -/
structure Policy where
  /-- The countries the exit must be in, when there are any. -/
  allow : List Text
  /-- The countries the exit must not be in. -/
  deny : List Text
  /-- Seconds between two checks of a running tunnel. -/
  interval : ℕ
  /-- Every entry is a code of two letters. -/
  codes : ∀ code∈allow++deny, TwoLetters code
  /-- One list has entries, the other has none. -/
  one_list : allow=[] ↔ deny≠[]

/-- The time between two checks when none is set. -/
def defaultIntervalSecs : ℕ := 60

/-- Parse a number of 64 bits: decimal digits after an optional plus sign. -/
def parseU64 (s : Text) : Option ℕ :=
  let digits := match s with
    | '+' :: rest => rest
    | _ => s
  if digits≠[] ∧ digits.all (isDigit 10)=true ∧ digitsValue 10 digits<2 ^ 64 then
    some (digitsValue 10 digits)
  else none

/-- The time between two checks as the environment sets it, a day at most. -/
def intervalFromEnv (setting : Option Text) : ℕ :=
  match (setting.bind parseU64).filter (0<·) with
  | some secs => min secs 86400
  | none => defaultIntervalSecs

/-- The codes of a list; entries that are no code are dropped. -/
def codesOf (body : Text) : List Text :=
  ((splitAny (· == ',') body).map fun c => asciiUpper (trim c)).filter
    fun c => utf8Len c == 2 && c.all isAsciiAlphabetic

theorem codesOf_twoLetters (body : Text) : ∀ code∈codesOf body, TwoLetters code := by
  intro code h
  simpa [TwoLetters] using (mem_filter.mp h).2

/-- Read a policy: a list of codes, negated by a leading exclamation mark. A
list without codes is no policy. -/
def Policy.parse (secs : Option Text) (raw : Text) : Option Policy :=
  let spec := trim raw
  if spec=[] ∨ eqIgnoreAsciiCase spec "any".toList ∨ eqIgnoreAsciiCase spec "off".toList then none
  else
    let negated := spec.head?=some '!'
    let body := trimStartMatches '!' (trimStartMatches '=' (trimStartMatches '!' spec))
    if h : codesOf body=[] then none
    else if negated then
      some ⟨[],codesOf body,intervalFromEnv secs,codesOf_twoLetters body,iff_of_true rfl h⟩
    else
      some ⟨codesOf body,[],intervalFromEnv secs,
        by simpa using codesOf_twoLetters body,iff_of_false h (by simp)⟩

/-- Does the policy take an exit in this country? -/
def Policy.accepts (p : Policy) (loc : Text) : Bool :=
  let code := asciiUpper (trim loc)
  if code∈p.deny then false else p.allow.isEmpty || p.allow.contains code

/-- The value of the first line of a trace that has the name. -/
def field (body name : Text) : Option Text :=
  (((lines body).findSome? (stripPrefix (name++['=']))).map trim).filter (·≠[])

/-- The country of a trace. -/
def parseTrace (body : Text) : Option Text :=
  ((field body "loc".toList).map asciiUpper).filter (utf8Len · == 2)

/-- What a trace says about the exit. -/
structure Exit where
  /-- The address the exit is seen with. -/
  address : Option Text
  /-- The country of the exit. -/
  country : Option Text
  /-- The data centre that answered. -/
  colo : Option Text
  /-- Does the answer come through the provider's own tunnel? -/
  warp : Bool
  /-- The time the look-up took. -/
  rtt : ℕ

/-- Read all fields of a trace. -/
def parseExit (body : Text) (rtt : ℕ) : Exit where
  address := field body "ip".toList
  country := parseTrace body
  colo := field body "colo".toList
  warp := decide (field body "warp".toList=some "on".toList)
  rtt := rtt

/-- How the tunnel answers one look-up. -/
structure Answer where
  /-- The address of the trace host, or why it was not found. -/
  resolved : Except Text IpAddr
  /-- Why the connection could not be opened, if so. -/
  opened : Except Text Unit
  /-- Why the request could not be sent, if so. -/
  sent : Except Text Unit
  /-- The pieces of the answer in the order they arrive. -/
  chunks : List Bytes
  /-- Did the time for the look-up run out? -/
  timedOut : Bool
  /-- The time the look-up took. -/
  elapsed : ℕ

/-- Collect the pieces until there is a location or too much of an answer. -/
def collect (buf : Bytes) : List Bytes → Bytes
  | [] => buf
  | chunk::rest =>
    let buf := buf++chunk
    if 8192<buf.length ∨ (parseTrace (fromUtf8Lossy buf)).isSome then buf else collect buf rest

/-- Fetch the trace through the tunnel. -/
def readTrace (answer : Answer) : Except Text Text :=
  if answer.timedOut then .error "looking up the exit location timed out".toList
  else do
    let _ ← answer.resolved
    answer.opened
    answer.sent
    return fromUtf8Lossy (collect [] answer.chunks)

/-- The exit as far as it can be read. -/
def report (answer : Answer) : Option Exit :=
  match readTrace answer with
  | .ok body => some (parseExit body answer.elapsed)
  | .error _ => none

/-- The country of the exit, or why it is not known. -/
def lookup (answer : Answer) : Except Text Text :=
  match readTrace answer with
  | .error e => .error e
  | .ok body =>
    match parseTrace body with
    | some loc => .ok loc
    | none => .error "the trace answer carried no location".toList

/-- Check the policy before the tunnel is used. Without a policy the exit is
only reported. -/
def settle (policy : Option Policy) (answer : Answer) : Except Text Unit :=
  match policy with
  | none => .ok ()
  | some policy =>
    match report answer with
    | none =>
      .error "the exit location could not be read, so the policy cannot be honoured".toList
    | some exit =>
      let loc := exit.country.getD []
      if policy.accepts loc then .ok ()
      else .error
        ("exit location ".toList++loc ++ " does not satisfy the requested policy".toList)

/-- Check the policy again and again. The watch ends with the first location
that the policy refuses; a look-up that fails is passed over. -/
def watch (policy : Policy) : List Answer → Option Text
  | [] => none
  | answer::rest =>
    match lookup answer with
    | .ok loc =>
      if policy.accepts loc then watch policy rest
      else some ("exit location changed to ".toList++loc)
    | .error _ => watch policy rest

/-- Upper case letters come from letters. -/
theorem isAsciiAlphabetic_of_toUpper {c : Char} (h : isAsciiAlphabetic c.toUpper=true) :
    isAsciiAlphabetic c=true := by
  unfold Char.toUpper at h
  split at h
  · rename_i hc
    have hlo : 97≤c.toNat := by simpa [UInt32.le_iff_toNat_le] using hc.1
    have hhi : c.toNat≤122 := by simpa [UInt32.le_iff_toNat_le] using hc.2
    simp [isAsciiAlphabetic,hlo,hhi]
  · exact h

/-- A text has no more characters than bytes. -/
theorem length_le_utf8Len (s : Text) : s.length≤utf8Len s := by
  induction s with
  | nil => rfl
  | cons c s ih =>
    have hpos := c.utf8Size_pos
    simp only [utf8Len,map_cons,sum_cons,length_cons] at ih ⊢
    omega

/-- Letters take one byte each. -/
theorem utf8Len_of_alphabetic {s : Text} (h : s.all isAsciiAlphabetic=true) :
    utf8Len s=s.length := by
  induction s with
  | nil => rfl
  | cons c s ih =>
    rw [all_cons,Bool.and_eq_true] at h
    have hc : c.toNat≤127 := by
      have := h.1
      simp [isAsciiAlphabetic] at this
      omega
    have hsize : c.utf8Size=1 := Char.utf8Size_eq_one_iff.mpr (by simpa [UInt32.le_iff_toNat_le] using hc)
    have hs := ih h.2
    simp only [utf8Len,map_cons,sum_cons,length_cons] at hs ⊢
    omega

/-- A text of two bytes that reads as two letters once it is trimmed and put in
upper case has these two letters. -/
theorem twoLetters_of_normal {loc : Text} (hlen : utf8Len loc=2)
    (h : TwoLetters (asciiUpper (trim loc))) : TwoLetters loc := by
  have hletters : (trim loc).all isAsciiAlphabetic=true := by
    rw [all_eq_true]
    intro c hc
    exact isAsciiAlphabetic_of_toUpper (all_eq_true.mp h.2 _ (mem_map_of_mem hc))
  have htwo : (trim loc).length=2 := by
    have hup := utf8Len_of_alphabetic h.2
    rw [h.1,asciiUpper,length_map] at hup
    exact hup.symm
  have hle := length_le_utf8Len loc
  have hsub : (trim loc).Sublist loc :=
    (List.rdropWhile_prefix _ _).sublist.trans (dropWhile_suffix _).sublist
  have hsame : trim loc=loc := hsub.eq_of_length_le (by omega)
  rw [hsame] at hletters
  exact ⟨hlen,hletters⟩

theorem parseTrace_utf8Len {body loc : Text} (h : parseTrace body=some loc) : utf8Len loc=2 := by
  have := (Option.filter_eq_some_iff.mp h).2
  simpa using this

/-- The check passes exactly when the tunnel answered and the policy takes what
was read, the empty text when there was no location. -/
theorem settle_eq_ok_iff (p : Policy) (answer : Answer) :
    settle (some p) answer=.ok () ↔
      ∃ body, readTrace answer=.ok body ∧ p.accepts ((parseTrace body).getD [])=true := by
  simp only [settle,report]
  cases hread : readTrace answer with
  | error e => simp
  | ok body =>
    have hcountry : (parseExit body answer.elapsed).country=parseTrace body := rfl
    cases haccepts : p.accepts ((parseTrace body).getD []) with
    | false | true => simp [hcountry,haccepts]

/-- A list of countries to insist on takes nothing but two letters. -/
theorem accepts_of_allow {p : Policy} (hallow : p.allow≠[]) {loc : Text}
    (h : p.accepts loc=true) : TwoLetters (asciiUpper (trim loc)) := by
  have hmem : asciiUpper (trim loc)∈p.allow := by
    simp only [Policy.accepts] at h
    split at h
    · exact absurd h Bool.false_ne_true
    · simpa [hallow] using h
  exact p.codes _ (mem_append_left _ hmem)

/-- A list of countries to avoid takes whatever is not two letters. -/
theorem accepts_of_deny {p : Policy} (hdeny : p.deny≠[]) {loc : Text}
    (h : ¬TwoLetters (asciiUpper (trim loc))) : p.accepts loc=true := by
  have hfree : asciiUpper (trim loc) ∉ p.deny :=
    fun hmem => h (p.codes _ (mem_append_right _ hmem))
  simp [Policy.accepts,hfree,p.one_list.mpr hdeny]

/-- The check passes only with a location of two letters that was read from the
answer and that the policy takes. -/
def HonoursPolicy (p : Policy) (answer : Answer) : Prop :=
  settle (some p) answer=.ok () → ∃ body loc, readTrace answer=.ok body ∧
    parseTrace body=some loc ∧ TwoLetters loc ∧ p.accepts loc=true

/-- The check honours a policy exactly when the policy lists countries to insist
on or every answer of the tunnel carries a location of two letters. -/
theorem honoursPolicy_iff (p : Policy) (answer : Answer) :
    HonoursPolicy p answer ↔ p.deny=[] ∨
      ∀ body, readTrace answer=.ok body → ∃ loc, parseTrace body=some loc ∧ TwoLetters loc := by
  constructor
  · intro h
    by_contra hcon
    push Not at hcon
    obtain ⟨hdeny,body,hread,hnone⟩ := hcon
    have hcode : ¬TwoLetters (asciiUpper (trim ((parseTrace body).getD []))) := by
      cases hloc : parseTrace body with
      | none => decide
      | some loc =>
        exact fun htwo => hnone loc hloc (twoLetters_of_normal (parseTrace_utf8Len hloc) htwo)
    have hok : settle (some p) answer=.ok () :=
      (settle_eq_ok_iff p answer).mpr ⟨body,hread,accepts_of_deny hdeny hcode⟩
    obtain ⟨body',loc,hread',hloc,htwo,-⟩ := h hok
    cases hread.symm.trans hread'
    exact hnone loc hloc htwo
  · intro h hok
    obtain ⟨body,hread,haccepts⟩ := (settle_eq_ok_iff p answer).mp hok
    rcases h with hdeny | h
    · have hallow : p.allow≠[] := fun he => p.one_list.mp he hdeny
      have htwo := accepts_of_allow hallow haccepts
      cases hloc : parseTrace body with
      | none =>
        rw [hloc] at htwo
        exact absurd htwo (by decide)
      | some loc =>
        rw [hloc] at htwo haccepts
        exact ⟨body,loc,hread,hloc,twoLetters_of_normal (parseTrace_utf8Len hloc) htwo,haccepts⟩
    · obtain ⟨loc,hloc,htwo⟩ := h body hread
      rw [hloc] at haccepts
      exact ⟨body,loc,hread,hloc,htwo,haccepts⟩

/-- The bytes of a text of ASCII characters. -/
def asciiBytes (s : Text) : Bytes := s.map fun c => UInt8.ofNat c.toNat

/-- A tunnel that delivers one answer in one piece. -/
def answering (body : Text) : Answer where
  resolved := .ok (.v4 (ipv4OfOctets 104 16 123 96))
  opened := .ok ()
  sent := .ok ()
  chunks := [asciiBytes body]
  timedOut := false
  elapsed := 42

/-- One country is to be avoided, the answer names no country at all, and the
check passes; the look-up of a running tunnel refuses the same answer. -/
theorem missing_location_passes :
    ∃ p answer, Policy.parse none "!IR".toList=some p ∧
      answer=answering "colo=FRA\nwarp=off\n".toList ∧ settle (some p) answer=.ok () ∧
      lookup answer=.error "the trace answer carried no location".toList ∧
      ¬HonoursPolicy p answer := by
  have hsettled : (Policy.parse none "!IR".toList).map
      (fun p => settle (some p) (answering "colo=FRA\nwarp=off\n".toList))=some (.ok ()) := by
    decide
  have hread : readTrace (answering "colo=FRA\nwarp=off\n".toList)=
      .ok "colo=FRA\nwarp=off\n".toList := by
    decide
  obtain ⟨p,hp,hok⟩ := Option.map_eq_some_iff.mp hsettled
  refine ⟨p,_,hp,rfl,hok,by decide,fun h => ?_⟩
  obtain ⟨body,loc,hbody,hloc,-⟩ := h hok
  have hnone : parseTrace "colo=FRA\nwarp=off\n".toList=none := by decide
  rw [←Except.ok.inj (hread.symm.trans hbody),hnone] at hloc
  cases hloc

end MsnGuard.ExitLocation
