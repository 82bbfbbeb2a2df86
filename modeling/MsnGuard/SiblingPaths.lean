import MsnGuard.RustText

/-!
# Files beside another file

The path of a file beside another one has a word put before the extension: before the last dot
of the file name, or at the end if the name has none. Two paths have the same file beside them
only if they are the same.
-/

namespace MsnGuard.SiblingPaths

open RustText List

variable {p : Char → Bool} {s head suffix tail : Text}

/-- The place of the last character of a kind. -/
def rfind (p : Char → Bool) : Text → Option ℕ
  | [] => none
  | c::rest =>
    match rfind p rest with
    | some i => some (i+1)
    | none => if p c then some 0 else none

/-- Does a directory end here? -/
def separator (c : Char) : Bool := c == '/' || c == '\\'

/-- Where the name of the file begins. -/
def dirEnd (base : Text) : ℕ := ((rfind separator base).map (· + 1)).getD 0

/-- The path with a word before its extension. -/
def deriveSiblingPath (base suffix : Text) : Text :=
  match rfind (· == '.') (base.drop (dirEnd base)) with
  | some rel =>
    base.take (dirEnd base+rel) ++ '-' :: suffix++base.drop (dirEnd base+rel)
  | none => base ++ '-' :: suffix

theorem rfind_none (h : rfind p s=none) : ∀ c∈s, p c=false := by
  induction s with
  | nil => simp
  | cons c rest ih =>
    rw [rfind] at h
    split at h
    · cases h
    · rename_i hrest
      split_ifs at h with hc
      exact forall_mem_cons.mpr ⟨Bool.eq_false_iff.mpr hc,ih hrest⟩

theorem rfind_some {i : ℕ} (h : rfind p s=some i) :
    ∃ front c back, s=front++c::back ∧ front.length=i ∧ p c=true ∧ ∀ d∈back, p d=false := by
  induction s generalizing i with
  | nil => cases h
  | cons c rest ih =>
    rw [rfind] at h
    split at h
    · rename_i j hrest
      cases h
      obtain ⟨front,d,back,rfl,hlength,hd,hback⟩ := ih hrest
      exact ⟨c::front,d,back,rfl,by rw [length_cons,hlength],hd,hback⟩
    · rename_i hrest
      split_ifs at h with hc
      cases h
      exact ⟨[],c,rest,rfl,rfl,hc,rfind_none hrest⟩

/-- The directory and the name of a path. -/
theorem exists_dir (base : Text) : ∃ dir file, base=dir++file ∧ dirEnd base=dir.length ∧
    (∀ c∈file, separator c=false) ∧
    (dir=[] ∨ ∃ front c, dir=front++[c] ∧ separator c=true) := by
  cases h : rfind separator base with
  | none => exact ⟨[],base,rfl,by rw [dirEnd,h]; rfl,rfind_none h,.inl rfl⟩
  | some i =>
    obtain ⟨front,c,back,rfl,hlength,hc,hback⟩ := rfind_some h
    refine ⟨front++[c],back,by simp,?_,hback,.inr ⟨front,c,rfl,hc⟩⟩
    rw [dirEnd,h,Option.map_some,Option.getD_some,length_append,hlength,length_singleton]

/-- The name of a file without an extension has no dot: after each dot a directory ends. -/
def Dotless (s : Text) : Prop :=
  ∀ front back, s=front ++ '.' :: back → ∃ c∈back, separator c=true

/-- An extension begins with the last dot of the name. -/
def Extension (s : Text) : Prop :=
  ∃ name, s = '.' :: name ∧ '.' ∉ name ∧ ∀ c∈name, separator c=false

/-- The two parts of a path around the place of a new word. -/
structure Split (base head tail : Text) : Prop where
  eq : base=head++tail
  tail : tail=[] ∧ Dotless head ∨ Extension tail

theorem dotless_of_file {dir file : Text} (hdot : '.' ∉ file)
    (hdir : dir=[] ∨ ∃ front c, dir=front++[c] ∧ separator c=true) : Dotless (dir++file) := by
  intro front back heq
  rcases append_eq_append_iff.mp heq with ⟨mid,hfront,hfile⟩ | ⟨mid,hdir',hback⟩
  · rw [hfile] at hdot
    exact absurd (mem_append_right _ mem_cons_self) hdot
  · -- the dot stands in the directory, and the end of the directory after it
    cases mid with
    | nil =>
      rw [nil_append] at hback
      rw [←hback] at hdot
      exact absurd mem_cons_self hdot
    | cons c rest =>
      cases hback
      rcases hdir with rfl | ⟨start,last,rfl,hlast⟩
      · cases front <;> cases hdir'
      · refine ⟨last,mem_append_left _ ?_,hlast⟩
        rcases eq_nil_or_concat' rest with rfl | ⟨init,final,rfl⟩
        · have hend := (append_inj' hdir' rfl).2
          cases hend
          cases hlast
        · have hassoc : start++[last]=(front ++ '.' :: init)++[final] := by
            rw [hdir']
            simp
          have hend := (append_inj' hassoc rfl).2
          cases hend
          exact mem_append_right _ (mem_singleton_self _)

/-- Every path has two such parts, and the new path has the word between them. -/
theorem exists_split (base : Text) : ∃ head tail, Split base head tail ∧
    ∀ suffix, deriveSiblingPath base suffix=head ++ '-' :: suffix++tail := by
  obtain ⟨dir,file,rfl,hend,hfile,hdir⟩ := exists_dir base
  have hdrop : (dir++file).drop dir.length=file := drop_left
  cases h : rfind (· == '.') file with
  | none =>
    have hdot : '.' ∉ file := by
      intro hmem
      have hfalse := rfind_none h '.' hmem
      cases hfalse
    refine ⟨dir++file,[],⟨(append_nil _).symm,.inl ⟨rfl,dotless_of_file hdot hdir⟩⟩,?_⟩
    intro suffix
    rw [deriveSiblingPath,hend,hdrop,h,append_nil]
  | some rel =>
    obtain ⟨front,c,back,rfl,hlength,hc,hback⟩ := rfind_some h
    obtain rfl : c = '.' := beq_iff_eq.mp hc
    have hname : '.' ∉ back := fun hmem => by cases hback '.' hmem
    have hplain : ∀ d∈back, separator d=false :=
      fun d hd => hfile d (mem_append_right _ (mem_cons_of_mem _ hd))
    refine ⟨dir++front,'.' :: back,⟨by simp,.inr ⟨back,rfl,hname,hplain⟩⟩,fun suffix => ?_⟩
    have hplace : dir.length+rel=(dir++front).length := by rw [length_append,hlength]
    rw [deriveSiblingPath,hend,hdrop,h]
    change (dir++(front ++ '.' :: back)).take (dir.length+rel)++_ ++
      (dir++(front ++ '.' :: back)).drop (dir.length+rel)=_
    rw [hplace,←append_assoc dir,take_left,drop_left]

theorem deriveSiblingPath_length (base suffix : Text) :
    (deriveSiblingPath base suffix).length=base.length+suffix.length+1 := by
  obtain ⟨head,tail,hsplit,hderive⟩ := exists_split base
  rw [hderive,hsplit.eq]
  simp only [length_append,length_cons]
  omega

/-- A file beside another is not that file. -/
theorem deriveSiblingPath_ne (base suffix : Text) : deriveSiblingPath base suffix≠base := by
  intro heq
  have hlength := deriveSiblingPath_length base suffix
  rw [heq] at hlength
  omega

/-- A name without an extension has none with a word without a dot at its end. -/
theorem Dotless.append (h : Dotless head) (hsuffix : '.' ∉ suffix) : Dotless (head++suffix) := by
  intro front back heq
  rcases append_eq_append_iff.mp heq with ⟨mid,-,hmid⟩ | ⟨mid,hhead,hback⟩
  · rw [hmid] at hsuffix
    exact absurd (mem_append_right _ mem_cons_self) hsuffix
  · cases mid with
    | nil =>
      rw [nil_append] at hback
      rw [←hback] at hsuffix
      exact absurd mem_cons_self hsuffix
    | cons c rest =>
      cases hback
      obtain ⟨d,hd,hsep⟩ := h front rest hhead
      exact ⟨d,mem_append_left _ hd,hsep⟩

/-- A name with an extension is not one without. -/
theorem Dotless.not_extension (h : Dotless (head++tail)) : ¬Extension tail := by
  rintro ⟨name,rfl,-,hplain⟩
  obtain ⟨c,hc,hsep⟩ := h head name rfl
  rw [hplain c hc] at hsep
  cases hsep

theorem Extension.append_inj {left right tail' : Text} (h : Extension tail) (h' : Extension tail')
    (heq : left++tail=right++tail') : left=right ∧ tail=tail' := by
  obtain ⟨name,rfl,hdot,-⟩ := h
  obtain ⟨name',rfl,hdot',-⟩ := h'
  rcases append_eq_append_iff.mp heq with ⟨mid,rfl,hmid⟩ | ⟨mid,rfl,hmid⟩
  · cases mid with
    | nil => exact ⟨(append_nil _).symm,hmid⟩
    | cons c rest =>
      obtain ⟨-,hname⟩ := cons.inj hmid
      rw [hname] at hdot
      exact absurd (mem_append_right _ mem_cons_self) hdot
  · cases mid with
    | nil => exact ⟨append_nil _,hmid.symm⟩
    | cons c rest =>
      obtain ⟨-,hname⟩ := cons.inj hmid
      rw [hname] at hdot'
      exact absurd (mem_append_right _ mem_cons_self) hdot'

/-- Two files have the same file beside them only if they are the same. -/
theorem deriveSiblingPath_inj {base base' : Text} (hsuffix : '.' ∉ suffix)
    (h : deriveSiblingPath base suffix=deriveSiblingPath base' suffix) : base=base' := by
  obtain ⟨head,tail,hsplit,hderive⟩ := exists_split base
  obtain ⟨head',tail',hsplit',hderive'⟩ := exists_split base'
  rw [hderive,hderive'] at h
  have hword : '.' ∉ '-' :: suffix := by
    intro hmem
    rcases mem_cons.mp hmem with hdash | hmem'
    · cases hdash
    · exact hsuffix hmem'
  rw [hsplit.eq,hsplit'.eq]
  rcases hsplit.tail with ⟨rfl,hdotless⟩ | hext
  · rcases hsplit'.tail with ⟨rfl,-⟩ | hext'
    · rw [append_nil,append_nil] at h
      rw [append_nil,append_nil]
      exact append_cancel_right h
    · rw [append_nil] at h
      have hlong := hdotless.append hword
      rw [h] at hlong
      exact absurd hext' hlong.not_extension
  · rcases hsplit'.tail with ⟨rfl,hdotless'⟩ | hext'
    · rw [append_nil] at h
      have hlong := hdotless'.append hword
      rw [←h] at hlong
      exact absurd hext hlong.not_extension
    · obtain ⟨hleft,htail⟩ := hext.append_inj hext' h
      rw [append_cancel_right hleft,htail]

end MsnGuard.SiblingPaths
