import MsnGuard.RoutingRules

/-!
# Networks as bare rule entries

An entry without a kind is tried as a network before it is taken for a name. The kind is cut off
at the first colon: IPv4 texts have none, an IPv6 text has one right after its first group.
-/

namespace MsnGuard.BareNetworks

open RustText IpAddresses RoutingRules List

/-- The texts of IPv4 addresses and networks: digits, full stops and a slash. -/
def Ipv4Form (s : Text) : Prop :=
  s≠[] ∧ ∀ c∈s, isDigit 10 c=true ∨ c = '.' ∨ c = '/'

/-- How the texts of IPv6 addresses and networks begin: with a group and a
colon, or with exactly two colons. -/
def Ipv6Form (s : Text) : Prop :=
  ∃ group rest, s=group ++ ':' :: rest ∧ (∀ c∈group, isDigit 16 c=true) ∧
    (group=[] → ∃ tail, rest = ':' :: tail ∧ tail.head?≠some ':')

/-- The text of a network has the form of its family. -/
def NetForm : IpNet → Text → Prop
  | .v4 _,s => Ipv4Form s
  | .v6 _,s => Ipv6Form s

/-- What the package documents of the networks in CIDR form that it reads. -/
def ReadsCidrForms {R : Type} (pkgs : RoutePackages R) : Prop :=
  ∀ s net, pkgs.ipNetFromStr s=some net → NetForm net s

section Digits

variable {c : Char} {radix maxDigits bound : ℕ} {zero : Bool} {s : Text}

/-- A digit is one of ten, or a letter up to F. -/
theorem isDigit_cases (h : isDigit 16 c=true) :
    (48≤c.toNat ∧ c.toNat≤57) ∨ (97≤c.toNat ∧ c.toNat≤102) ∨ (65≤c.toNat ∧ c.toNat≤70) := by
  unfold isDigit toDigit at h
  dsimp only at h
  split_ifs at h <;> simp [Option.filter] at h <;> omega

theorem isDigit_sixteen (h : isDigit 10 c=true) : isDigit 16 c=true := by
  unfold isDigit toDigit at h ⊢
  dsimp only at h ⊢
  split_ifs at h ⊢ <;> simp [Option.filter] at h ⊢ <;> omega

theorem not_whitespace_of_isDigit (h : isDigit 16 c=true) : isWhitespace c=false := by
  have hc := isDigit_cases h
  simp only [isWhitespace,Bool.or_eq_false_iff,Bool.and_eq_false_iff,decide_eq_false_iff_not,
    beq_eq_false_iff_ne]
  omega

theorem isDigit_ascii (h : isDigit 16 c=true) : c.toNat<128 := by
  have hc := isDigit_cases h
  omega

theorem isDigit_toLower_table : ∀ n<128, isDigit 16 (Char.ofNat n)=true →
    isDigit 16 (Char.ofNat n).toLower=true := by
  decide +kernel

/-- Folding the case of a digit gives a digit. -/
theorem isDigit_toLower (h : isDigit 16 c=true) : isDigit 16 c.toLower=true := by
  have htable := isDigit_toLower_table c.toNat (isDigit_ascii h)
  rw [Char.ofNat_toNat] at htable
  exact htable h

/-- A number is a run of digits at the front of the text. -/
theorem readNumber_digits {n : ℕ} {rest : Text}
    (h : readNumber radix maxDigits bound zero s=some (n,rest)) :
    ∃ digits, s=digits++rest ∧ digits≠[] ∧ ∀ c∈digits, isDigit radix c=true := by
  unfold readNumber at h
  dsimp only at h
  split_ifs at h with hlen hzero hbound
  cases h
  refine ⟨s.takeWhile (isDigit radix),takeWhile_append_dropWhile.symm,?_,?_⟩
  · intro hnil
    rw [hnil] at hlen
    exact hlen (.inl rfl)
  · intro c hc
    exact mem_takeWhile_imp hc

theorem readNumber_nondigit (hc : isDigit radix c=false) :
    readNumber radix maxDigits bound zero (c::s)=none := by
  simp [readNumber,hc]

end Digits

section Addresses

variable {s rest : Text} {a : Ipv6Addr} {limit left : ℕ}

theorem readOctet_chars {index n : ℕ} (h : readOctet index s=some (n,rest)) :
    ∃ front, s=front++rest ∧ front≠[] ∧ ∀ c∈front, isDigit 10 c=true ∨ c = '.' ∨ c = '/' := by
  unfold readOctet readSeparator at h
  split_ifs at h with hindex
  · obtain ⟨digits,hs,hne,hdigits⟩ := readNumber_digits h
    exact ⟨digits,hs,hne,fun c hc => .inl (hdigits c hc)⟩
  cases s with
  | nil => cases h
  | cons c s =>
    dsimp only at h
    split_ifs at h with hdot
    obtain ⟨digits,hs,-,hdigits⟩ := readNumber_digits h
    refine ⟨c::digits,by rw [hs,cons_append],cons_ne_nil _ _,fun d hd => ?_⟩
    rcases mem_cons.mp hd with rfl | hd
    · exact .inr (.inl hdot)
    · exact .inl (hdigits d hd)

/-- An IPv4 address is read from digits and full stops. -/
theorem readIpv4Addr_chars {a : Ipv4Addr} (h : readIpv4Addr s=some (a,rest)) :
    ∃ front, s=front++rest ∧ front≠[] ∧ ∀ c∈front, isDigit 10 c=true ∨ c = '.' ∨ c = '/' := by
  obtain ⟨⟨o₀,s₁⟩,h₀,h⟩ := Option.bind_eq_some_iff.mp h
  obtain ⟨⟨o₁,s₂⟩,h₁,h⟩ := Option.bind_eq_some_iff.mp h
  obtain ⟨⟨o₂,s₃⟩,h₂,h⟩ := Option.bind_eq_some_iff.mp h
  obtain ⟨⟨o₃,s₄⟩,h₃,h⟩ := Option.map_eq_some_iff.mp h
  cases h
  obtain ⟨f₀,rfl,hne,hf₀⟩ := readOctet_chars h₀
  obtain ⟨f₁,rfl,-,hf₁⟩ := readOctet_chars h₁
  obtain ⟨f₂,rfl,-,hf₂⟩ := readOctet_chars h₂
  obtain ⟨f₃,rfl,-,hf₃⟩ := readOctet_chars h₃
  refine ⟨f₀++(f₁++(f₂++f₃)),by simp only [append_assoc],?_,fun c hc => ?_⟩
  · exact append_ne_nil_of_left_ne_nil hne _
  · simp only [mem_append] at hc
    rcases hc with hc | hc | hc | hc
    · exact hf₀ c hc
    · exact hf₁ c hc
    · exact hf₂ c hc
    · exact hf₃ c hc

theorem readIpv4Addr_nondigit {c : Char} (hc : isDigit 10 c=false) : readIpv4Addr (c::s)=none := by
  have h : readOctet 0 (c::s)=none := readNumber_nondigit hc
  rw [readIpv4Addr,h,Option.bind_none]

/-- The groups after the first begin with a colon, if there are any. -/
theorem readGroups_later (hlater : left<limit) (h : (readGroups limit left s).1≠[]) :
    ∃ rest, s = ':' :: rest := by
  cases left with
  | zero => exact absurd rfl h
  | succ left =>
    have hindex : limit-(left+1)≠0 := by omega
    cases s with
    | nil =>
      refine absurd ?_ h
      simp [readGroups,readSeparator,hindex]
    | cons c rest =>
      by_cases hc : c = ':'
      · exact ⟨rest,by rw [hc]⟩
      · refine absurd ?_ h
        simp [readGroups,readSeparator,hindex,hc]

theorem readGroups_nil (h : (readGroups limit left s).1=[]) :
    readGroups limit left s=([],false,s) := by
  cases left with
  | zero => rfl
  | succ left =>
    unfold readGroups at h ⊢
    dsimp only at h ⊢
    split at h
    · cases h
    · split at h
      · simp_all
      · cases h

theorem readGroups_colon : readGroups limit limit (':' :: s)=([],false,':' :: s) := by
  cases limit with
  | zero => rfl
  | succ left =>
    have hnumber : readNumber 16 4 65536 true (':' :: s)=none := readNumber_nondigit rfl
    have hv4 : readIpv4Addr (':' :: s)=none := readIpv4Addr_nondigit rfl
    simp [readGroups,readSeparator,hnumber,hv4]

/-- What follows the two colons of a shortened address is not a third one. -/
theorem readIpv6Addr_double (hstop : rest.head?≠some ':') (hnil : (readGroups 8 8 s).1=[])
    (h : readIpv6Addr s=some (a,rest)) : ∃ tail, s = ':' :: ':' :: tail ∧ tail.head?≠some ':' := by
  unfold readIpv6Addr at h
  rw [readGroups_nil hnil] at h
  simp only [length_nil,Nat.reduceEqDiff,if_false,Bool.false_eq_true] at h
  split at h
  · rename_i tail
    refine ⟨tail,rfl,fun hthird => ?_⟩
    cases tail with
    | nil => cases hthird
    | cons c tail =>
      cases hthird
      rw [readGroups_colon] at h
      cases h
      exact hstop rfl
  · cases h

/-- A text that is read as an IPv6 address up to something that is no colon has
the form of one, unless it begins with an IPv4 address. -/
theorem readIpv6Addr_form (hstop : rest.head?≠some ':') (hv4 : readIpv4Addr s=none)
    (h : readIpv6Addr s=some (a,rest)) : Ipv6Form s := by
  by_cases hnil : (readGroups 8 8 s).1=[]
  · obtain ⟨tail,rfl,htail⟩ := readIpv6Addr_double hstop hnil h
    exact ⟨[],':' :: tail,rfl,by simp,fun _ => ⟨tail,rfl,htail⟩⟩
  have hfirst : ∃ n more, readNumber 16 4 65536 true s=some (n,more) := by
    cases hnumber : readNumber 16 4 65536 true s with
    | none =>
      refine absurd ?_ hnil
      simp [readGroups,readSeparator,hv4,hnumber]
    | some r => exact ⟨r.1,r.2,rfl⟩
  obtain ⟨n,more,hnumber⟩ := hfirst
  obtain ⟨digits,rfl,hne,hdigits⟩ := readNumber_digits hnumber
  have hgroups : readGroups 8 8 (digits++more)=
      (n::(readGroups 8 7 more).1,(readGroups 8 7 more).2) := by
    simp [readGroups,readSeparator,hv4,hnumber]
  have hcolon : ∃ tail, more = ':' :: tail := by
    by_cases hlater : (readGroups 8 7 more).1=[]
    · unfold readIpv6Addr at h
      rw [hgroups,readGroups_nil hlater] at h
      simp only [length_cons,length_nil,Nat.reduceEqDiff,if_false,Bool.false_eq_true] at h
      split at h
      · exact ⟨_,rfl⟩
      · cases h
    · exact readGroups_later (by decide) hlater
  obtain ⟨tail,rfl⟩ := hcolon
  exact ⟨digits,tail,rfl,hdigits,fun hempty => absurd hempty hne⟩

/-- The text of an address has the form of its family. -/
theorem parseIpAddr_form {a : IpAddr} (h : parseIpAddr s=some a) : NetForm (.ofAddr a) s := by
  unfold parseIpAddr readIpAddr at h
  cases hv4 : readIpv4Addr s with
  | some r =>
    obtain ⟨address,rest⟩ := r
    rw [hv4] at h
    cases rest with
    | nil =>
      cases h
      obtain ⟨front,hs,hne,hchars⟩ := readIpv4Addr_chars hv4
      rw [append_nil] at hs
      rw [hs]
      exact ⟨hne,hchars⟩
    | cons c rest => cases h
  | none =>
    rw [hv4] at h
    cases hv6 : readIpv6Addr s with
    | none =>
      rw [hv6] at h
      cases h
    | some r =>
      obtain ⟨address,rest⟩ := r
      rw [hv6] at h
      cases rest with
      | nil =>
        cases h
        exact readIpv6Addr_form (by simp) hv4 hv6
      | cons c rest => cases h

end Addresses

section Forms

variable {s : Text}
variable {c : Char} {tail : Text}

/-- Characters of which the texts of networks are made at their ends. -/
theorem not_whitespace_of_v4 (h : isDigit 10 c=true ∨ c = '.' ∨ c = '/') :
    isWhitespace c=false := by
  rcases h with h | rfl | rfl
  · exact not_whitespace_of_isDigit (isDigit_sixteen h)
  · decide
  · decide

theorem Ipv4Form.trim_eq (h : Ipv4Form s) : trim s=s := by
  apply trim_eq_self
  · intro c hc
    exact not_whitespace_of_v4 (h.2 c (mem_of_mem_head? hc))
  · intro c hc
    exact not_whitespace_of_v4 (h.2 c (mem_of_mem_getLast? hc))

theorem Ipv4Form.not_mem (h : Ipv4Form s) (hdigit : isDigit 10 c=false) (hdot : c ≠ '.')
    (hslash : c ≠ '/') : c ∉ s := by
  intro hmem
  rcases h.2 c hmem with hc | hc | hc
  · rw [hdigit] at hc
    cases hc
  · exact hdot hc
  · exact hslash hc

theorem Ipv6Form.colon_mem (h : Ipv6Form s) : ':' ∈ s := by
  obtain ⟨group,rest,rfl,-⟩ := h
  simp

/-- A text in other characters, in lower case, is no word of the rule lists. -/
theorem lower_ne {t word : Text} (hmem : c∈word) (hplain : isDigit 16 c=false) (hdot : c ≠ '.')
    (hslash : c ≠ '/') (h : ∀ d∈t, isDigit 16 d=true ∨ d = '.' ∨ d = '/') : asciiLower t≠word := by
  rintro rfl
  obtain ⟨d,hd,rfl⟩ := mem_map.mp hmem
  rcases h d hd with hdigit | rfl | rfl
  · rw [isDigit_toLower hdigit] at hplain
    cases hplain
  · exact hdot rfl
  · exact hslash rfl

/-- A group is no kind of entry. -/
theorem ofText_group {group : Text} (hne : group≠[]) (h : ∀ c∈group, isDigit 16 c=true) :
    EntryKind.ofText (asciiLower group)=.unknown := by
  have hword : ∀ (word : Text) (c : Char), c∈word ∧ isDigit 16 c=false ∧ c ≠ '.' ∧ c ≠ '/' →
      asciiLower group≠word := fun word c ⟨hmem,hplain,hdot,hslash⟩ =>
    lower_ne hmem hplain hdot hslash fun d hd => .inl (h d hd)
  have hempty : asciiLower group≠[] := by simpa [asciiLower] using hne
  have hsuffix := hword "domain".toList 'o' (by decide)
  have hsuffix' := hword "suffix".toList 's' (by decide)
  have hfull := hword "full".toList 'u' (by decide)
  have hfull' := hword "exact".toList 'x' (by decide)
  have hkeyword := hword "keyword".toList 'k' (by decide)
  have hregex := hword "regexp".toList 'r' (by decide)
  have hregex' := hword "regex".toList 'r' (by decide)
  have hnet := hword "ip".toList 'i' (by decide)
  have hnet' := hword "cidr".toList 'i' (by decide)
  have hport := hword "port".toList 'p' (by decide)
  have hgeo := hword "geoip".toList 'g' (by decide)
  have hgeo' := hword "geosite".toList 'g' (by decide)
  simp only [EntryKind.ofText,hsuffix,hsuffix',hfull,hfull',hkeyword,hregex,hregex',hnet,hnet',
    hport,hgeo,hgeo',hempty,or_self,if_false]

/-- A text that begins with a single colon is no network. -/
theorem not_form_of_colon (h : tail.head?≠some ':') (net : IpNet) : ¬NetForm net (':' :: tail) := by
  intro hform
  cases net with
  | v4 n => exact Ipv4Form.not_mem hform (by decide) (by decide) (by decide) mem_cons_self
  | v6 n =>
    obtain ⟨group,rest,heq,hhex,hempty⟩ := hform
    cases group with
    | nil =>
      obtain ⟨more,hrest,-⟩ := hempty rfl
      rw [nil_append,hrest] at heq
      cases heq
      exact h rfl
    | cons c group =>
      cases heq
      exact absurd (hhex ':' mem_cons_self) (by decide)

/-- Trimming leaves a single colon in front. -/
theorem trim_colon (h : tail.head?≠some ':') :
    ∃ value, trim (':' :: tail) = ':' :: value ∧ value.head?≠some ':' := by
  have hfront : (':' :: tail).rdropWhile isWhitespace <+: ':' :: tail := rdropWhile_prefix _ _
  have hne : (':' :: tail).rdropWhile isWhitespace≠[] := by
    intro hnil
    exact absurd (rdropWhile_eq_nil_iff.mp hnil ':' mem_cons_self) (by decide)
  have htrim : trim (':' :: tail)=(':' :: tail).rdropWhile isWhitespace := rfl
  rw [htrim]
  cases hvalue : (':' :: tail).rdropWhile isWhitespace with
  | nil => exact absurd hvalue hne
  | cons c value =>
    rw [hvalue,cons_prefix_cons] at hfront
    obtain ⟨rfl,hrest⟩ := hfront
    obtain ⟨rest,rfl⟩ := hrest
    refine ⟨value,rfl,fun hhead => h ?_⟩
    rw [head?_append,hhead,Option.some_or]

end Forms

section Entries

variable {R : Type} {pkgs : RoutePackages R}
variable {s : Text} {net : IpNet}

theorem parseNet_form (hcidr : ReadsCidrForms pkgs) (h : parseNet pkgs s=some net) :
    NetForm net (trim s) := by
  unfold parseNet at h
  dsimp only at h
  split at h
  · rename_i found hfound
    cases h
    exact hcidr _ _ hfound
  · obtain ⟨a,ha,rfl⟩ := Option.map_eq_some_iff.mp h
    exact parseIpAddr_form ha

/-- A text in the form of IPv4 networks is a bare entry as it stands. -/
theorem parse_v4 (hform : Ipv4Form (trim s)) (h : parseNet pkgs s=some net) :
    Matcher.parse pkgs s=some (.net net) := by
  have hcolon : ':' ∉ trim s := hform.not_mem (by decide) (by decide) (by decide)
  have hhash : (trim s).head?≠some '#' := fun hhead =>
    hform.not_mem (c := '#') (by decide) (by decide) (by decide) (mem_of_mem_head? hhead)
  have hsplit : splitEntry pkgs (trim s)=([],trim s) := by
    rw [splitEntry,splitOnce_eq_none hcolon]
  have hprivate : eqIgnoreAsciiCase (trim s) "private".toList=false := by
    apply decide_eq_false
    refine lower_ne (c := 'p') (by decide) (by decide) (by decide) (by decide) fun d hd => ?_
    exact (hform.2 d hd).imp_left isDigit_sixteen
  have hnet : parseNet pkgs (trim s)=some net := by
    rw [←h]
    simp only [parseNet,hform.trim_eq]
  unfold Matcher.parse
  rw [if_neg (by simp [hform.1,hhash]),hsplit]
  change Matcher.ofValue pkgs .bare (trim s)=_
  simp only [Matcher.ofValue,hprivate,hnet,Bool.false_eq_true,if_false]

/-- The first group of an IPv6 text is taken for a kind, which no rule list
knows; without a first group the rest is no network any more. -/
theorem parse_v6 (hcidr : ReadsCidrForms pkgs) (hform : Ipv6Form (trim s)) (net : IpNet) :
    Matcher.parse pkgs s≠some (.net net) := by
  obtain ⟨group,rest,hs,hhex,hempty⟩ := hform
  have hsplit : splitEntry pkgs (trim s)=(asciiLower group,trim rest) := by
    have hcolon : ':' ∉ group := fun hmem => absurd (hhex _ hmem) (by decide)
    have hdot : '.' ∉ group := fun hmem => absurd (hhex _ hmem) (by decide)
    have hslash : '/' ∉ group := fun hmem => absurd (hhex _ hmem) (by decide)
    have htrim : trim group=group := trim_eq_self
      (fun c hc => not_whitespace_of_isDigit (hhex c (mem_of_mem_head? hc)))
      (fun c hc => not_whitespace_of_isDigit (hhex c (mem_of_mem_getLast? hc)))
    have hlower := toLowercase_ascii pkgs.caseTable fun c hc => isDigit_ascii (hhex c hc)
    simp only [splitEntry,hs,splitOnce_append hcolon,hdot,hslash,htrim,hlower,not_false_iff,
      and_self,if_true]
  have hparse : Matcher.parse pkgs s=none ∨ Matcher.parse pkgs s=
      Matcher.ofValue pkgs (EntryKind.ofText (asciiLower group)) (trim rest) := by
    unfold Matcher.parse
    dsimp only
    split
    · exact .inl rfl
    · rw [hsplit]
      exact .inr rfl
  rcases hparse with hparse | hparse
  · rw [hparse]
    nofun
  rw [hparse]
  by_cases hgroup : group=[]
  · obtain ⟨tail,rfl,htail⟩ := hempty hgroup
    rw [hgroup]
    obtain ⟨value,hvalue,hsingle⟩ := trim_colon htail
    have hprivate : eqIgnoreAsciiCase (':' :: value) "private".toList=false := by
      apply decide_eq_false
      intro heq
      exact absurd (cons.inj heq).1 (by decide)
    have hnet : parseNet pkgs (':' :: value)=none := by
      cases hfound : parseNet pkgs (':' :: value) with
      | none => rfl
      | some found =>
        have hform := parseNet_form hcidr hfound
        obtain ⟨last,hlast,hstill⟩ := trim_colon hsingle
        rw [hlast] at hform
        exact absurd hform (not_form_of_colon hstill found)
    simp only [Matcher.ofValue,hvalue,hprivate,hnet,Bool.false_eq_true,if_false]
    intro heq
    obtain ⟨name,-,hname⟩ := Option.map_eq_some_iff.mp heq
    cases hname
  · rw [ofText_group hgroup hhex]
    nofun

/-- A bare entry that is a network is read as that network exactly when it has
no colon, that is, when it is written as an IPv4 address or network. -/
theorem bare_network_iff (hcidr : ReadsCidrForms pkgs) {s : Text} {net : IpNet}
    (h : parseNet pkgs s=some net) : Matcher.parse pkgs s=some (.net net) ↔ ':' ∉ s := by
  have hform := parseNet_form hcidr h
  have htrim : ':' ∈ trim s ↔ ':' ∈ s := mem_trim (by decide) s
  cases net with
  | v4 n =>
    have hcolon := Ipv4Form.not_mem (c := ':') hform (by decide) (by decide) (by decide)
    rw [htrim] at hcolon
    exact ⟨fun _ => hcolon,fun _ => parse_v4 hform h⟩
  | v6 n =>
    have hcolon := Ipv6Form.colon_mem hform
    rw [htrim] at hcolon
    exact ⟨fun hparse => absurd hparse (parse_v6 hcidr hform _),fun hno => absurd hcolon hno⟩

end Entries

section Reader

/-- A reader of CIDR texts: an address of either family, a slash and the length
of the common part. -/
def cidrFromStr (s : Text) : Option IpNet :=
  match readIpv4Addr s with
  | some (a,'/' :: length) =>
    match readNumber 10 2 33 true length with
    | some (n,[]) => if h : n<33 then some (.v4 ⟨a,⟨n,h⟩⟩) else none
    | _ => none
  | some _ => none
  | none =>
    match readIpv6Addr s with
    | some (a,'/' :: length) =>
      match readNumber 10 3 129 true length with
      | some (n,[]) => if h : n<129 then some (.v6 ⟨a,⟨n,h⟩⟩) else none
      | _ => none
    | _ => none

/-- Packages without regular expressions, with that reader. -/
def plainPackages : RoutePackages Empty where
  caseTable := .plain
  regexNew _ := none
  regexIsMatch r _ := r.elim
  ipNetFromStr := cidrFromStr

theorem plainPackages_forms : ReadsCidrForms plainPackages := by
  intro s net h
  change cidrFromStr s=some net at h
  unfold cidrFromStr at h
  split at h
  · rename_i a length hv4
    split at h
    · rename_i n hnumber
      split_ifs at h
      cases h
      obtain ⟨front,hs,hne,hfront⟩ := readIpv4Addr_chars hv4
      obtain ⟨digits,hlength,-,hdigits⟩ := readNumber_digits hnumber
      rw [append_nil] at hlength
      rw [hs,hlength]
      refine ⟨append_ne_nil_of_left_ne_nil hne _,fun c hc => ?_⟩
      rw [mem_append,mem_cons] at hc
      rcases hc with hc | hc | hc
      · exact hfront c hc
      · exact .inr (.inr hc)
      · exact .inl (hdigits c hc)
    · cases h
  · cases h
  · rename_i hv4
    split at h
    · rename_i a length hv6
      split at h
      · rename_i n hnumber
        split_ifs at h
        cases h
        exact readIpv6Addr_form (by simp) hv4 hv6
      · cases h
    · cases h

/-- An IPv4 network and a single IPv4 address are read as networks. -/
theorem bare_network_v4 :
    Matcher.parse plainPackages "10.0.0.0/8".toList=some (.net (.v4 ⟨ipv4OfOctets 10 0 0 0,8⟩)) ∧
      Matcher.parse plainPackages " 1.2.3.4 ".toList=some (.net (.v4 ⟨ipv4OfOctets 1 2 3 4,32⟩)) :=
  ⟨(bare_network_iff plainPackages_forms (by decide +kernel)).mpr (by decide),
    (bare_network_iff plainPackages_forms (by decide +kernel)).mpr (by decide)⟩

/-- An IPv6 network is dropped, and the loopback address becomes a name. -/
theorem bare_network_v6_lost :
    parseNet plainPackages "2001:db8::/32".toList=
        some (.v6 ⟨ipv6OfGroups [0x2001,0xdb8,0,0,0,0,0,0],32⟩) ∧
      Matcher.parse plainPackages "2001:db8::/32".toList=none ∧
      parseNet plainPackages "::1".toList=some (.v6 ⟨1,128⟩) ∧
      Matcher.parse plainPackages "::1".toList=some (.domainSuffix ":1".toList) := by
  refine ⟨by decide +kernel,rfl,by decide +kernel,rfl⟩

end Reader

end MsnGuard.BareNetworks
