import MsnGuard.RoutingRules

/-!
# Which spellings of one destination a rule set tells apart

Splitting every matcher into the part that answers alike for all spellings of a destination and
the part that reads the spelling gives the exact condition under which two spellings are decided
alike.
-/

namespace MsnGuard.RoutingDecisions

open RustText IpAddresses RoutingRules

/-- The action that follows from what the block and the direct list say. -/
def verdict (blocked directed : Bool) : Action :=
  if blocked then .block else if directed then .direct else .proxy

/-- Two verdicts with a common part in either list agree exactly when the
common part blocks, or the remaining parts agree as far as they matter. -/
theorem verdict_eq_iff (p q x y x' y' : Bool) :
    verdict (p || x) (q || y)=verdict (p || x') (q || y') ↔
      p=true ∨ x=x' ∧ (x=true ∨ q=true ∨ y=y') := by
  revert p q x y x' y'
  decide +kernel

section Splitting

variable {R : Type} (pkgs : RoutePackages R)

theorem decide_eq_verdict (set : RuleSet R) (host : Host) (port : ℕ) :
    set.decide pkgs host port=
      verdict (anyMatches pkgs set.block host port) (anyMatches pkgs set.direct host port) := rfl

/-- A split of every rule of a list is a split of the any-match. -/
theorem anyMatches_split {rules : List (Matcher R)} {host : Host} {port : ℕ}
    {firm loose : Matcher R → Bool}
    (h : ∀ m∈rules, m.matches pkgs host port=(firm m || loose m)) :
    anyMatches pkgs rules host port=(rules.any firm || rules.any loose) := by
  unfold anyMatches
  induction rules with
  | nil => rfl
  | cons m rules ih =>
    have hm := h m List.mem_cons_self
    have hr := ih fun n hn => h n (List.mem_cons_of_mem _ hn)
    simp only [List.any_cons,hm,hr]
    cases firm m <;> cases loose m <;> simp

end Splitting

section Ipv4Spellings

variable {R : Type} (pkgs : RoutePackages R)

/-- A port rule applies whatever the destination is. -/
def portHit (port : ℕ) : Matcher R → Bool
  | .ports lo hi => decide (lo≤port ∧ port≤hi)
  | _ => false

/-- The rules that see an IPv4 address. -/
def addressHit (a : Ipv4Addr) : Matcher R → Bool
  | .privateNets => isPrivate (.v4 a)
  | .net (.v4 network) => network.contains a
  | _ => false

/-- The rules that see a name. -/
def nameHit (name : Text) (port : ℕ) (m : Matcher R) : Bool :=
  match m with
  | .domainSuffix _ | .domainFull _ | .domainKeyword _ | .domainRegex _ =>
    m.matches pkgs (.domain name) port
  | _ => false

/-- The rules that see the IPv4-mapped form of an address. -/
def mappedHit (a : Ipv4Addr) : Matcher R → Bool
  | .net (.v6 network) => network.contains (toIpv6Mapped a)
  | _ => false

theorem matches_address (a : Ipv4Addr) (port : ℕ) (m : Matcher R) :
    m.matches pkgs (.ip (.v4 a)) port=(portHit port m || addressHit a m) := by
  cases m with
  | net network => cases network <;> simp [Matcher.matches,portHit,addressHit,IpNet.contains]
  | _ => simp [Matcher.matches,portHit,addressHit]

/-- The dotted text of an address is not the name of the local host. -/
theorem ipv4Text_ne_localhost (a : Ipv4Addr) :
    eqIgnoreAsciiCase (ipv4Text a) "localhost".toList=false := by
  have hstop : '.' ∈ asciiLower (ipv4Text a) := by
    refine List.mem_map.mpr ⟨'.',?_,by decide⟩
    simp [ipv4Text]
  have hlocal : '.' ∉ asciiLower "localhost".toList := by decide
  unfold eqIgnoreAsciiCase
  rw [decide_eq_false_iff_not]
  intro h
  rw [h] at hstop
  exact hlocal hstop

theorem matches_text (a : Ipv4Addr) (port : ℕ) (m : Matcher R) :
    m.matches pkgs (.domain (ipv4Text a)) port=
      (portHit port m || nameHit pkgs (ipv4Text a) port m) := by
  cases m with
  | privateNets =>
    simpa only [Matcher.matches,portHit,nameHit,Bool.or_false] using ipv4Text_ne_localhost a
  | _ => simp [Matcher.matches,portHit,nameHit]

theorem toIpv6Mapped_toNat (a : Ipv4Addr) : (toIpv6Mapped a).toNat=0xffff*2^32+a.toNat := by
  have ha := a.isLt
  simp only [toIpv6Mapped,BitVec.toNat_ofNat]
  omega

/-- No IPv4-mapped address counts as private. -/
theorem isPrivate_mapped (a : Ipv4Addr) : isPrivate (.v6 (toIpv6Mapped a))=false := by
  have hv := toIpv6Mapped_toNat a
  have ha := a.isLt
  have hs : ipv6Segment (toIpv6Mapped a) 0=0 := by
    simp only [ipv6Segment,hv]
    omega
  have hsmall : ∀ b : Ipv6Addr, b.toNat<2^32 → toIpv6Mapped a≠b := by
    rintro b hb rfl
    omega
  simp [isPrivate,hs,hsmall 1#128 (by decide),hsmall 0#128 (by decide)]

theorem matches_mapped (a : Ipv4Addr) (port : ℕ) (m : Matcher R) :
    m.matches pkgs (.ip (.v6 (toIpv6Mapped a))) port=(portHit port m || mappedHit a m) := by
  cases m with
  | privateNets =>
    simpa only [Matcher.matches,portHit,mappedHit,Bool.or_false] using isPrivate_mapped a
  | net network => cases network <;> simp [Matcher.matches,portHit,mappedHit,IpNet.contains]
  | _ => simp [Matcher.matches,portHit,mappedHit]

/-- The three spellings of an IPv4 destination are decided alike. -/
def SpellingsAgree (set : RuleSet R) (a : Ipv4Addr) (port : ℕ) : Prop :=
  set.decide pkgs (.ip (.v4 a)) port=set.decide pkgs (.domain (ipv4Text a)) port ∧
    set.decide pkgs (.ip (.v4 a)) port=set.decide pkgs (.ip (.v6 (toIpv6Mapped a))) port

/-- In one list, the rules on the address, on its text and on its mapped form
either all apply or none does. -/
def PartsAgree (rules : List (Matcher R)) (a : Ipv4Addr) (port : ℕ) : Prop :=
  rules.any (addressHit a)=rules.any (nameHit pkgs (ipv4Text a) port) ∧
    rules.any (addressHit a)=rules.any (mappedHit a)

/-- The three spellings are decided alike exactly when a port rule blocks, or
the three kinds of rules agree in the block list and, unless they block or a
port rule sends the connection direct, also in the direct list. -/
theorem spellingsAgree_iff (set : RuleSet R) (a : Ipv4Addr) (port : ℕ) :
    SpellingsAgree pkgs set a port ↔ set.block.any (portHit port)=true ∨
        PartsAgree pkgs set.block a port ∧
          (set.block.any (addressHit a)=true ∨ set.direct.any (portHit port)=true ∨
            PartsAgree pkgs set.direct a port) := by
  have hip : ∀ rules : List (Matcher R), anyMatches pkgs rules (.ip (.v4 a)) port=
      (rules.any (portHit port) || rules.any (addressHit a)) :=
    fun rules => anyMatches_split pkgs fun m _ => matches_address pkgs a port m
  have htext : ∀ rules : List (Matcher R), anyMatches pkgs rules (.domain (ipv4Text a)) port=
      (rules.any (portHit port) || rules.any (nameHit pkgs (ipv4Text a) port)) :=
    fun rules => anyMatches_split pkgs fun m _ => matches_text pkgs a port m
  have hmap : ∀ rules : List (Matcher R), anyMatches pkgs rules (.ip (.v6 (toIpv6Mapped a))) port=
        (rules.any (portHit port) || rules.any (mappedHit a)) :=
    fun rules => anyMatches_split pkgs fun m _ => matches_mapped pkgs a port m
  simp only [SpellingsAgree,PartsAgree,decide_eq_verdict,hip,htext,hmap,verdict_eq_iff]
  tauto

end Ipv4Spellings

/-- Packages for rule texts with ASCII letters only, no regular expression and
no network in CIDR form. -/
def plainPackages : RoutePackages Unit where
  caseTable := .plain
  regexNew _ := none
  regexIsMatch _ _ := false
  ipNetFromStr _ := none

/-- A blocked address is refused in its own form only: its decimal text, which
denotes the same address, and its mapped form go through the proxy. -/
theorem blocked_address_spellings :
    parseIpAddr (ipv4Text (ipv4OfOctets 10 1 2 3))=some (.v4 (ipv4OfOctets 10 1 2 3)) ∧
    ¬SpellingsAgree plainPackages (RuleSet.parse plainPackages "10.1.2.3".toList [])
      (ipv4OfOctets 10 1 2 3) 443 := by
  refine ⟨parseIpAddr_text _,?_⟩
  unfold SpellingsAgree
  decide +kernel

section NameSpellings

variable {R : Type} (pkgs : RoutePackages R)
variable {value s t : Text}

/-- A text whose last character is not the full stop; it is not empty. -/
def EndsPlain (s : Text) : Prop := ∃ t d, s=t++[d] ∧ d ≠ '.'

/-- Names of parsed rules carry no trailing full stop. -/
def Normal : Matcher R → Prop
  | .domainSuffix suffix => EndsPlain suffix
  | .domainFull full => EndsPlain full
  | _ => True

/-- Normalisation leaves a name that ends in something else than a full stop. -/
theorem normalizeDomain_endsPlain {name : Text} (h : normalizeDomain pkgs value=some name) :
    EndsPlain name := by
  unfold normalizeDomain at h
  dsimp only at h
  split_ifs at h with hne
  cases h
  have hx : trimEndMatches '.' (trimStartMatches '.' (trimStartMatches '*' (trim value)))≠[] := by
    intro hnil
    rw [hnil] at hne
    exact hne rfl
  have hlast := List.rdropWhile_last_not _ _ hx
  rw [←List.dropLast_concat_getLast hx]
  refine lowercaseFrom_last pkgs.caseTable ?_ _ []
  exact fun hstop => hlast (beq_iff_eq.mpr hstop)

variable {m : Matcher R}

/-- Every kind of entry gives a normal rule. -/
theorem ofValue_normal {kind : EntryKind} (h : Matcher.ofValue pkgs kind value=some m) : Normal m := by
  have hmap : ∀ {α : Type} {o : Option α} {f : α → Matcher R},
      o.map f=some m → (∀ a, o=some a → Normal (f a)) → Normal m := by
    intro α o f hm hf
    obtain ⟨a,ha,rfl⟩ := Option.map_eq_some_iff.mp hm
    exact hf a ha
  cases kind with
  | suffix | full => exact hmap h fun _ ha => normalizeDomain_endsPlain pkgs ha
  | keyword =>
    simp only [Matcher.ofValue] at h
    split_ifs at h
    cases h
    trivial
  | regex | network | port => exact hmap h fun _ _ => trivial
  | geo =>
    simp only [Matcher.ofValue] at h
    split_ifs at h
    cases h
    trivial
  | bare =>
    simp only [Matcher.ofValue] at h
    split at h
    · cases h
      trivial
    · split at h
      · cases h
        trivial
      · exact hmap h fun _ ha => normalizeDomain_endsPlain pkgs ha
  | unknown => cases h

/-- Every rule that can be read from an entry is normal. -/
theorem parse_normal {entry : Text} (h : Matcher.parse pkgs entry=some m) : Normal m := by
  unfold Matcher.parse at h
  dsimp only at h
  split_ifs at h
  exact ofValue_normal pkgs h

theorem parseList_normal {raw : Text} (h : m∈parseList pkgs raw) : Normal m := by
  obtain ⟨entry,_,hm⟩ := List.mem_filterMap.mp h
  exact parse_normal pkgs hm

/-- A name with or without its trailing full stop. -/
def spell (base : Text) (dotted : Bool) : Text := if dotted then base++['.'] else base

/-- The rules that apply to every spelling of a name: those on the port, and
those on a keyword inside the name. -/
def firmHit (base : Text) (port : ℕ) : Matcher R → Bool
  | .ports lo hi => decide (lo≤port ∧ port≤hi)
  | .domainKeyword needle => containsText needle (toLowercase pkgs.caseTable base)
  | _ => false

/-- The rules that read the spelling. A suffix, a full name and the local host
are only found without the trailing full stop, a keyword with a full stop at
its end only with it, and a regular expression sees every character. -/
def looseHit (base : Text) (dotted : Bool) (port : ℕ) (m : Matcher R) : Bool :=
  match m with
  | .domainSuffix _ | .domainFull _ | .privateNets =>
    !dotted && m.matches pkgs (.domain base) port
  | .domainKeyword needle =>
    dotted && containsText needle (toLowercase pkgs.caseTable base++['.'])
  | .domainRegex pattern => pkgs.regexIsMatch pattern (spell base dotted)
  | _ => false

/-- A text that ends plainly is not one with a trailing full stop, up to case. -/
theorem eqIgnoreAsciiCase_stop (ht : EndsPlain t) : eqIgnoreAsciiCase (s++['.']) t=false := by
  obtain ⟨u,d,rfl,hd⟩ := ht
  unfold eqIgnoreAsciiCase
  rw [decide_eq_false_iff_not]
  intro h
  rw [asciiLower_append,asciiLower_append] at h
  have hlast := (List.append_inj' h rfl).2
  simp only [asciiLower,List.map_cons,List.map_nil,List.cons.injEq,and_true] at hlast
  exact hd (toLower_eq_stop hlast.symm)

/-- Neither is it the end of such a text. -/
theorem not_suffix_stop (ht : EndsPlain t) : ¬t <:+ s++['.'] := by
  obtain ⟨u,d,rfl,hd⟩ := ht
  rintro ⟨v,hv⟩
  rw [←List.append_assoc] at hv
  have hlast := (List.append_inj' hv rfl).2
  simp only [List.cons.injEq,and_true] at hlast
  exact hd hlast

theorem endsPlain_cons {c : Char} (ht : EndsPlain t) : EndsPlain (c::t) := by
  obtain ⟨u,d,rfl,hd⟩ := ht
  exact ⟨c::u,d,rfl,hd⟩

/-- Every normal rule splits into its firm and its loose part. -/
theorem matches_spelled (hm : Normal m) (base : Text) (dotted : Bool) (port : ℕ) :
    m.matches pkgs (.domain (spell base dotted)) port=
      (firmHit pkgs base port m || looseHit pkgs base dotted port m) := by
  cases dotted with
  | false => cases m <;> simp [spell,Matcher.matches,firmHit,looseHit]
  | true =>
    cases m with
    | domainSuffix suffix =>
      have hne : toLowercase pkgs.caseTable base++['.']≠suffix := by
        intro h
        exact not_suffix_stop hm ⟨[],h.symm⟩
      have hend := not_suffix_stop (s := toLowercase pkgs.caseTable base) (endsPlain_cons (c := '.') hm)
      simp [spell,Matcher.matches,firmHit,looseHit,toLowercase_stop,hne,endsWith,hend]
    | domainFull full =>
      simp [spell,Matcher.matches,firmHit,looseHit,eqIgnoreAsciiCase_stop (s := base) hm]
    | privateNets =>
      have hlocal : EndsPlain "localhost".toList := ⟨"localhos".toList,'t',by decide,by decide⟩
      simp only [spell,Matcher.matches,firmHit,looseHit,if_true,eqIgnoreAsciiCase_stop hlocal,
        Bool.not_true,Bool.false_and,Bool.or_false]
    | domainKeyword needle =>
      have hgrow : containsText needle (toLowercase pkgs.caseTable base)=true →
          containsText needle (toLowercase pkgs.caseTable base++['.'])=true := by
        simp only [containsText,decide_eq_true_eq]
        exact fun h => h.trans (List.prefix_append _ _).isInfix
      simp only [spell,Matcher.matches,firmHit,looseHit,if_true,toLowercase_stop,Bool.true_and]
      cases hc : containsText needle (toLowercase pkgs.caseTable base) with
      | false => rw [Bool.false_or]
      | true => rw [hgrow hc,Bool.or_true]
    | _ => simp [spell,Matcher.matches,firmHit,looseHit]

/-- The firm part does not see the letter case. -/
theorem firmHit_congr {base base' : Text} (h : asciiLower base=asciiLower base') (port : ℕ) :
    firmHit (R := R) pkgs base port=firmHit pkgs base' port := by
  funext m
  cases m <;> simp [firmHit,toLowercase_congr pkgs.caseTable h]

/-- Two spellings of one name that differ in letter case and in the trailing
full stop are decided alike exactly when a firm rule blocks, or the rules that
read the spelling agree in the block list and, unless they block or a firm rule
sends the connection direct, also in the direct list. -/
theorem decide_spelled_iff (block direct : Text) (port : ℕ) {base base' : Text}
    (h : asciiLower base=asciiLower base') (dotted dotted' : Bool) :
    ((RuleSet.parse pkgs block direct).decide pkgs (.domain (spell base dotted)) port=
      (RuleSet.parse pkgs block direct).decide pkgs (.domain (spell base' dotted')) port) ↔
    ((parseList pkgs block).any (firmHit pkgs base port)=true ∨
      (parseList pkgs block).any (looseHit pkgs base dotted port)=
          (parseList pkgs block).any (looseHit pkgs base' dotted' port) ∧
        ((parseList pkgs block).any (looseHit pkgs base dotted port)=true ∨
          (parseList pkgs direct).any (firmHit pkgs base port)=true ∨
          (parseList pkgs direct).any (looseHit pkgs base dotted port)=
            (parseList pkgs direct).any (looseHit pkgs base' dotted' port))) := by
  have hsplit : ∀ (raw name : Text) (dot : Bool),
      anyMatches pkgs (parseList pkgs raw) (.domain (spell name dot)) port=
        ((parseList pkgs raw).any (firmHit pkgs name port) ||
          (parseList pkgs raw).any (looseHit pkgs name dot port)) :=
    fun raw name dot => anyMatches_split pkgs fun m hm =>
      matches_spelled pkgs (parseList_normal pkgs hm) name dot port
  rw [decide_eq_verdict,decide_eq_verdict]
  simp only [RuleSet.parse,hsplit]
  rw [←firmHit_congr pkgs h port]
  exact verdict_eq_iff _ _ _ _ _ _

/-- The trailing full stop makes a blocked name pass. -/
theorem blocked_name_dotted :
    (RuleSet.parse plainPackages "ads.example".toList []).decide plainPackages
        (.domain (spell "ads.example".toList false)) 443=.block ∧
      (RuleSet.parse plainPackages "ads.example".toList []).decide plainPackages
        (.domain (spell "ads.example".toList true)) 443=.proxy := by
  decide +kernel

/-- Letter case alone changes nothing for a suffix rule. -/
theorem blocked_name_upper :
    asciiLower "ads.example".toList=asciiLower "ADS.Example".toList ∧
    (RuleSet.parse plainPackages "ads.example".toList []).decide plainPackages
        (.domain (spell "ads.example".toList false)) 443=
      (RuleSet.parse plainPackages "ads.example".toList []).decide plainPackages
        (.domain (spell "ADS.Example".toList false)) 443 :=
  ⟨by decide,(decide_spelled_iff plainPackages _ _ _ (by decide) _ _).mpr (by decide +kernel)⟩

end NameSpellings

end MsnGuard.RoutingDecisions
