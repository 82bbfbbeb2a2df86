import MsnGuard.StreamInputs

/-!
# What the calls of read return

The chunks that were taken from the queue account for every byte: their data is in the arrays of
the finished calls, in the array of the call in progress or in the rest of the current piece.
-/

namespace MsnGuard.StreamReads

open RustText TransitionRuns StreamInputs List Option

section Invariant

variable {chunk : Chunk} {b : Bytes} {len : ℕ} {result : ReadResult} {stage : Stage}
  {rest : List Chunk}

/-- The chunks `taken` from the queue are those whose data is in the arrays of
the reader and in the current piece; the end is the last of them once it has
been reported. -/
structure Exact (t : List Event) (s : Buffer) (taken : List Chunk) : Prop where
  offered : offeredChunks t=taken++(s.pendingTerminal.toList++s.queue)
  returned : returnedBytes t++(s.progress++s.rest)=dataOf taken
  filled : ∀ bytes, .data bytes∈s.queue → bytes≠[]
  kept : ∀ chunk, s.pendingTerminal=some chunk → chunk.isTerminal=true ∧ s.current=none ∧
    ∀ r, s.reading=some r → r.totalRead=0
  inside : ∀ data, s.current=some data → s.currentPos<data.length
  reading : ∀ r, s.reading=some r → s.finished=false ∧ r.Fits ∧
    (r.stage≠.looping → s.current.isSome=true ∧ r.totalRead<r.len)
  unfinished : s.finished=false → ∀ chunk∈taken, chunk.isTerminal=false
  finished : s.finished=true → s.current=none ∧ s.pendingTerminal=none ∧
    ∃ pieces last, taken=pieces++[last] ∧ last.isTerminal=true ∧
      ∀ chunk∈pieces, chunk.isTerminal=false
  reported : s.finished=true ↔ Reported t

variable {t : List Event} {s : Buffer} {taken : List Chunk} {r : Reading}

theorem exact_fresh : Exact [] Input.fresh.toBuffer [] where
  offered := rfl
  returned := rfl
  filled _ h := by cases h
  kept _ h := by cases h
  inside _ h := by cases h
  reading _ h := by cases h
  unfinished _ _ h := by cases h
  finished h := by cases h
  reported := by simp [Input.fresh,Reported]

theorem progress_eq (hr : s.reading=some r) : s.progress=r.copied := by
  rw [Buffer.progress,hr]

theorem progress_idle (hidle : s.reading=none) : s.progress=[] := by
  rw [Buffer.progress,hidle]

section

variable (h : Exact t s taken)

include h

/-- A chunk enters the queue. -/
theorem Exact.put (hne : chunk≠.data []) :
    Exact (t++[.offered chunk]) {s with queue := s.queue++[chunk]} taken where
  __ := h
  offered := by
    rw [offeredChunks_append,h.offered]
    simp [offeredChunks]
  returned := by
    rw [returnedBytes_append,show returnedBytes [.offered chunk]=[] from rfl,append_nil]
    exact h.returned
  filled bytes hmem := by
    rcases mem_append.mp hmem with hmem | hmem
    · exact h.filled bytes hmem
    · rintro rfl
      exact hne (mem_singleton.mp hmem).symm
  reported := h.reported.trans reported_append_offered.symm

/-- A call begins while the end has not been reported. -/
theorem Exact.beginRead (hidle : s.reading=none)
    (hopen : s.finished=false) {off : ℕ} (hfits : off+len≤b.length) (hlen : 0<len) :
    Exact t {s with reading := some ⟨b,off,len,0,.looping⟩} taken where
  __ := h
  returned := by
    rw [←h.returned,progress_idle hidle]
    rfl
  kept chunk hchunk := by
    obtain ⟨hterminal,hcurrent,-⟩ := h.kept chunk hchunk
    refine ⟨hterminal,hcurrent,fun r hr => ?_⟩
    cases hr
    rfl
  reading r hr := by
    cases hr
    exact ⟨hopen,⟨hfits,hlen,Nat.zero_le _⟩,absurd rfl⟩

/-- A call ends; the end is reported only if it has been. -/
theorem Exact.endRead {bytes : Bytes} (hbytes : s.progress=bytes)
    (hresult : result.isReport=true → s.finished=true) :
    Exact (t++[.returned len result bytes]) {s with reading := none} taken where
  __ := h
  offered := by
    rw [offeredChunks_append,h.offered]
    exact append_nil _
  returned := by
    rw [←h.returned,hbytes]
    simp [returnedBytes,Buffer.progress,Buffer.rest]
  kept chunk hchunk := by
    obtain ⟨hterminal,hcurrent,-⟩ := h.kept chunk hchunk
    exact ⟨hterminal,hcurrent,nofun⟩
  reading r hr := by cases hr
  reported := by
    rw [reported_append_one]
    exact ⟨fun hf => .inl (h.reported.mp hf),fun hor => hor.elim h.reported.mpr hresult⟩

/-- The call moves on inside a turn of its loop. -/
theorem Exact.moveOn (hr : s.reading=some r)
    (hstage : s.current.isSome=true ∧ r.totalRead<r.len) :
    Exact t {s with reading := some {r with stage := stage}} taken where
  __ := h
  returned := by
    rw [←h.returned,progress_eq hr]
    rfl
  kept chunk hchunk := by
    obtain ⟨hterminal,hcurrent,hzero⟩ := h.kept chunk hchunk
    refine ⟨hterminal,hcurrent,fun r' hr' => ?_⟩
    cases hr'
    exact hzero r hr
  reading r' hr' := by
    obtain ⟨hopen,hfits,-⟩ := h.reading r hr
    cases hr'
    exact ⟨hopen,⟨hfits.inside,hfits.some,hfits.bound⟩,fun _ => hstage⟩

/-- A piece of data is taken from the queue. -/
theorem Exact.takeData (hr : s.reading=some r)
    (hroom : r.totalRead<r.len) (hcurrent : s.current=none) (hkept : s.pendingTerminal=none)
    {bytes : Bytes} (hqueue : s.queue=.data bytes::rest) :
    Exact t {s with queue := rest,current := some bytes,currentPos := 0,
                    reading := some {r with stage := stage}} (taken++[.data bytes]) where
  offered := by
    rw [h.offered,hkept,hqueue]
    simp
  returned := by
    have hrest : s.rest=[] := by rw [Buffer.rest,hcurrent]
    rw [dataOf_append,←h.returned,progress_eq hr,hrest]
    simp [Buffer.progress,Buffer.rest,Reading.copied,dataOf]
  filled bytes' hmem := h.filled bytes' (by rw [hqueue]; exact mem_cons_of_mem _ hmem)
  kept chunk hchunk := by
    rw [hkept] at hchunk
    cases hchunk
  inside data hdata := by
    cases hdata
    have hne := h.filled bytes (by rw [hqueue]; exact mem_cons_self)
    exact length_pos_iff.mpr hne
  reading r' hr' := by
    obtain ⟨hopen,hfits,-⟩ := h.reading r hr
    cases hr'
    exact ⟨hopen,⟨hfits.inside,hfits.some,hfits.bound⟩,fun _ => ⟨rfl,hroom⟩⟩
  unfinished hopen chunk hmem := by
    rcases mem_append.mp hmem with hmem | hmem
    · exact h.unfinished hopen chunk hmem
    · rw [mem_singleton.mp hmem]
      rfl
  finished hf := by
    have hopen := (h.reading r hr).1
    rw [hopen] at hf
    cases hf
  reported := h.reported

/-- An end is kept for the next call. -/
theorem Exact.keep (hidle : s.reading=none) (hopen : s.finished=false)
    (hcurrent : s.current=none) (hkept : s.pendingTerminal=none)
    (hterminal : chunk.isTerminal=true) (hqueue : s.queue=chunk::rest) :
    Exact t {s with queue := rest,pendingTerminal := some chunk} taken where
  __ := h
  offered := by
    rw [h.offered,hkept,hqueue]
    rfl
  filled bytes hmem := h.filled bytes (by rw [hqueue]; exact mem_cons_of_mem _ hmem)
  kept chunk' hchunk' := by
    cases hchunk'
    refine ⟨hterminal,hcurrent,fun r hr => ?_⟩
    rw [hidle] at hr
    cases hr
  finished hf := by
    rw [hopen] at hf
    cases hf

/-- The end is reported. -/
theorem Exact.finish (hr : s.reading=some r) (hcurrent : s.current=none)
    (hterminal : chunk.isTerminal=true)
    (hnext : s.pendingTerminal.toList++s.queue=chunk::rest) {kept : Option Chunk}
    (hkept : kept=none) (hresult : result.isReport=true) :
    Exact (t++[.returned r.len result r.copied])
      {s with queue := rest,pendingTerminal := kept,finished := true,reading := none}
      (taken++[chunk]) where
  offered := by
    rw [offeredChunks_append,h.offered,hnext,hkept]
    simp [offeredChunks]
  returned := by
    rw [dataOf_append,dataOf_terminal hterminal,←h.returned,progress_eq hr]
    simp [returnedBytes,Buffer.progress,Buffer.rest]
  filled bytes hmem := by
    have hsplit : .data bytes∈s.pendingTerminal.toList++s.queue := by
      rw [hnext]
      exact mem_cons_of_mem _ hmem
    rcases mem_append.mp hsplit with hold | hold
    · rw [mem_toList] at hold
      exact absurd (h.kept _ hold).1 (by simp [Chunk.isTerminal])
    · exact h.filled bytes hold
  kept chunk' hchunk' := by
    rw [hkept] at hchunk'
    cases hchunk'
  inside := h.inside
  reading _ hr := by cases hr
  unfinished hopen := by cases hopen
  finished _ := ⟨hcurrent,hkept,taken,chunk,rfl,hterminal,h.unfinished (h.reading r hr).1⟩
  reported := by
    rw [reported_append_one]
    exact ⟨fun _ => .inr hresult,fun _ => rfl⟩

end

/-- What is copied goes behind what was copied before. -/
theorem copied_arraycopy {piece : Bytes} (hfits : r.off+r.len≤r.b.length)
    (h : Input.arraycopy piece r.b (r.off+r.totalRead)=some b) :
    b.length=r.b.length ∧ (b.drop r.off).take (r.totalRead+piece.length)=r.copied++piece := by
  unfold Input.arraycopy at h
  split_ifs at h with hbound
  cases h
  refine ⟨?_,?_⟩
  · simp only [length_append,length_take,length_drop]
    omega
  · have hfront : (r.b.take (r.off+r.totalRead)).drop r.off=r.copied := by
      rw [drop_take,Nat.add_sub_cancel_left]
      rfl
    have hlength : r.copied.length=r.totalRead := by
      simp only [Reading.copied,length_take,length_drop]
      omega
    rw [append_assoc,drop_append_of_le_length (by simp; omega),hfront,
      ← append_assoc,take_append_of_le_length (by simp [hlength]),
      take_of_length_le (by simp [hlength])]

/-- Copying moves bytes from the current piece into the array of the call. -/
theorem Exact.copy {s s' : Input} (h : Exact t s.toBuffer taken) (hr : s.reading=some r)
    {data : Bytes} (hdata : s.current=some data) (hcopy : s.copy r data=some s') :
    Exact t s'.toBuffer taken := by
  obtain ⟨hopen,hfits,-⟩ := h.reading r hr
  obtain ⟨b,harray,rfl⟩ := map_eq_some_iff.mp hcopy
  generalize htoCopy : min (r.len-r.totalRead) (data.length-s.currentPos)=toCopy at harray ⊢
  have hpiece : ((data.drop s.currentPos).take toCopy).length=toCopy := by
    simp only [length_take,length_drop]
    omega
  have hroom : r.totalRead+toCopy≤r.len := by
    have := hfits.bound
    omega
  obtain ⟨hlength,hcopied⟩ := copied_arraycopy hfits.inside harray
  rw [hpiece] at hcopied
  constructor
  · exact h.offered
  · have hrest : s.rest=data.drop s.currentPos := by rw [Buffer.rest,hdata]
    have hsplit : (data.drop s.currentPos).take toCopy++Buffer.rest {s.toBuffer with
          current := if data.length ≤ s.currentPos+toCopy then none else some data,
          currentPos := s.currentPos+toCopy}=data.drop s.currentPos := by
      unfold Buffer.rest
      split
      · rename_i hnone
        split_ifs at hnone with hend
        rw [append_nil,take_of_length_le]
        simp only [length_drop]
        omega
      · rename_i data' hsome
        split_ifs at hsome with hend
        cases hsome
        rw [←drop_drop,take_append_drop]
    rw [←h.returned,progress_eq hr,hrest,←hsplit,←append_assoc r.copied,←hcopied]
    rfl
  · exact h.filled
  · intro chunk hchunk
    obtain ⟨-,hcurrent,-⟩ := h.kept chunk hchunk
    rw [hdata] at hcurrent
    cases hcurrent
  · intro data' hdata'
    split_ifs at hdata' with hend
    cases hdata'
    exact Nat.lt_of_not_le hend
  · intro r' hr'
    cases hr'
    refine ⟨hopen,⟨?_,hfits.some,hroom⟩,absurd rfl⟩
    rw [hlength]
    exact hfits.inside
  · exact h.unfinished
  · intro hf
    rw [hopen] at hf
    cases hf
  · exact h.reported

end Invariant

section Results

variable {rest : List Chunk} {s s' : Input} {chunk : Chunk} {new : List Event}

/-- All that was offered before the end has been returned. -/
def Delivered (t : List Event) : Prop := returnedBytes t=bytesBefore t

/-- When a call may end in a certain way, after what has happened before. -/
def Rightly (front : List Event) : Event → Prop
  | .offered _ => True
  | .returned len (.count n) bytes =>
    bytes.length=n ∧ n≤len ∧ (0<len → 0<n ∧ ¬Reported front)
  | .returned len .minusOne bytes =>
    bytes=[] ∧ 0<len ∧ Delivered front ∧ (Reported front ∨ firstTerminal front=some .eos)
  | .returned len (.failed cause) bytes =>
    bytes=[] ∧ 0<len ∧ Delivered front ∧ ¬Reported front ∧ firstTerminal front=some (.error cause)
  | .returned _ .interrupted bytes => bytes=[] ∧ ¬Reported front

variable {t : List Event} {taken : List Chunk} {r : Reading}

theorem before_terminal {pieces : List Chunk} {last : Chunk}
    (h : offeredChunks t=pieces++last::rest) (hlast : last.isTerminal=true)
    (hpieces : ∀ chunk∈pieces, chunk.isTerminal=false) :
    bytesBefore t=dataOf pieces ∧ firstTerminal t=some last := by
  have hdata : ∀ chunk∈pieces, (!chunk.isTerminal)=true := fun chunk hmem => by
    rw [hpieces chunk hmem]
    rfl
  refine ⟨?_,?_⟩
  · rw [bytesBefore,h,takeWhile_append_of_pos hdata]
    simp [hlast]
  · rw [firstTerminal,h,find?_append,find?_eq_none.mpr]
    · simp [hlast]
    · intro chunk hmem
      rw [hpieces chunk hmem]
      exact Bool.false_ne_true

/-- At the end nothing is left to be returned. -/
theorem Exact.delivered {s : Buffer} (h : Exact t s taken) (hr : s.reading=some r)
    (hcurrent : s.current=none) (hzero : r.totalRead=0) (hterminal : chunk.isTerminal=true)
    (hnext : s.pendingTerminal.toList++s.queue=chunk::rest) :
    Delivered t ∧ firstTerminal t=some chunk := by
  have hoffered := h.offered
  rw [hnext] at hoffered
  obtain ⟨hbytes,hfirst⟩ := before_terminal hoffered hterminal (h.unfinished (h.reading r hr).1)
  refine ⟨?_,hfirst⟩
  have hreturned := h.returned
  rw [Buffer.progress,hr,Buffer.rest,hcurrent] at hreturned
  simp only [Reading.copied,hzero,take_zero,append_nil] at hreturned
  rw [Delivered,hbytes,hreturned]

/-- After the end nothing is left to be returned. -/
theorem Exact.delivered_finished {s : Buffer} (h : Exact t s taken) (hf : s.finished=true) :
    Delivered t := by
  obtain ⟨hcurrent,-,pieces,last,rfl,hlast,hpieces⟩ := h.finished hf
  have hidle : s.reading=none := by
    cases hr : s.reading with
    | none => rfl
    | some r =>
      have hopen := (h.reading r hr).1
      rw [hf] at hopen
      cases hopen
  have hoffered := h.offered
  rw [append_assoc] at hoffered
  have hreturned := h.returned
  rw [Buffer.progress,hidle,Buffer.rest,hcurrent,dataOf_append,dataOf_terminal hlast] at hreturned
  simp only [append_nil] at hreturned
  rw [Delivered,(before_terminal hoffered hlast hpieces).1,hreturned]

theorem Exact.not_reported {s : Buffer} (h : Exact t s taken) (hr : s.reading=some r) :
    ¬Reported t := by
  rw [←h.reported,(h.reading r hr).1]
  exact Bool.false_ne_true

/-- What is left of a piece that is exhausted. -/
theorem Exact.current_none (h : Exact t s.toBuffer taken) (hexhausted : s.exhausted=true) :
    s.current=none := by
  unfold Input.exhausted at hexhausted
  split at hexhausted
  · assumption
  · rename_i data hdata
    have hpos := h.inside data hdata
    have hle := of_decide_eq_true hexhausted
    omega

/-- A step keeps the accounts, and a call that ends in it ends rightly. -/
def Keeps (t : List Event) (s' : Input) (new : List Event) : Prop :=
  (∃ taken', Exact (t++new) s'.toBuffer taken') ∧ (∀ e∈new, Rightly t e) ∧ new.length≤1

theorem keeps_silent {taken : List Chunk} (h : Exact t s'.toBuffer taken) :
    Keeps t s' [] := ⟨⟨taken,by rwa [append_nil]⟩,by simp,by simp⟩

theorem keeps_event {taken : List Chunk} {e : Event} (h : Exact (t++[e]) s'.toBuffer taken)
    (he : Rightly t e) : Keeps t s' [e] :=
  ⟨⟨taken,h⟩,fun e' hmem => by rw [mem_singleton.mp hmem]; exact he,le_rfl⟩

/-- A call that has copied something returns it. -/
theorem keeps_count (h : Exact t s.toBuffer taken) (hr : s.reading=some r)
    (hpos : 0<r.totalRead) :
    Keeps t (s.endRead r (.count r.totalRead)).1 (s.endRead r (.count r.totalRead)).2 := by
  have hfits := (h.reading r hr).2.1
  refine keeps_event (h.endRead (progress_eq hr) Bool.noConfusion) ?_
  exact ⟨hfits.copied_length,hfits.bound,fun _ => ⟨hpos,h.not_reported hr⟩⟩

theorem receive_terminal (h : chunk.isTerminal=true) :
    s.receive r chunk=
      if 0<r.totalRead then {s with pendingTerminal := some chunk}.endRead r (.count r.totalRead)
      else {s with finished := true}.endRead r chunk.report := by
  cases chunk with
  | data bytes => cases h
  | eos | error cause => rfl

theorem report_isReport (chunk : Chunk) : chunk.report.isReport=true := by
  cases chunk <;> rfl

theorem rightly_report (h : chunk.isTerminal=true) (hfits : r.Fits) (hzero : r.totalRead=0)
    (hdelivered : Delivered t) (hopen : ¬Reported t) (hfirst : firstTerminal t=some chunk) :
    Rightly t (.returned r.len chunk.report r.copied) := by
  have hcopied : r.copied=[] := by rw [Reading.copied,hzero,take_zero]
  cases chunk with
  | data bytes => cases h
  | eos => exact ⟨hcopied,hfits.some,hdelivered,.inr hfirst⟩
  | error cause => exact ⟨hcopied,hfits.some,hdelivered,hopen,hfirst⟩

section

variable (h : Exact t s.toBuffer taken)

include h

/-- A chunk is taken: data is kept for copying, an end is reported or kept. -/
theorem receive_keeps {s₁ : Input} (hr : s.reading=some r)
    (hroom : r.totalRead<r.len) (hcurrent : s.current=none)
    (hnext : s.nextChunk=some (chunk,s₁)) :
    Keeps t (s₁.receive r chunk).1 (s₁.receive r chunk).2 := by
  obtain ⟨hopen,hfits,-⟩ := h.reading r hr
  unfold Input.nextChunk at hnext
  split at hnext
  · rename_i kept hkept
    cases hnext
    obtain ⟨hterminal,-,hnone⟩ := h.kept _ hkept
    have hsplit : s.pendingTerminal.toList++s.queue=chunk::s.queue := by
      rw [hkept]
      rfl
    obtain ⟨hdelivered,hfirst⟩ := h.delivered hr hcurrent (hnone r hr) hterminal hsplit
    rw [receive_terminal hterminal,if_neg (by rw [hnone r hr]; exact Nat.lt_irrefl 0)]
    exact keeps_event (h.finish hr hcurrent hterminal hsplit rfl (report_isReport chunk))
      (rightly_report hterminal hfits (hnone r hr) hdelivered (h.not_reported hr) hfirst)
  · rename_i first rest hkept hqueue
    cases hnext
    have hsplit : s.pendingTerminal.toList++s.queue=chunk::rest := by
      rw [hkept,hqueue]
      rfl
    by_cases hterminal : chunk.isTerminal=true
    · rw [receive_terminal hterminal]
      split_ifs with hpos
      · refine keeps_event
          ((h.endRead (progress_eq hr) Bool.noConfusion).keep rfl hopen hcurrent hkept hterminal hqueue) ?_
        exact ⟨hfits.copied_length,hfits.bound,fun _ => ⟨hpos,h.not_reported hr⟩⟩
      · have htotal : r.totalRead=0 := Nat.eq_zero_of_not_pos hpos
        obtain ⟨hdelivered,hfirst⟩ := h.delivered hr hcurrent htotal hterminal hsplit
        exact keeps_event (h.finish hr hcurrent hterminal hsplit hkept (report_isReport chunk))
          (rightly_report hterminal hfits htotal hdelivered (h.not_reported hr) hfirst)
    · cases chunk with
      | data bytes => exact keeps_silent (h.takeData hr hroom hcurrent hkept hqueue)
      | eos | error cause => exact absurd rfl hterminal
  · cases hnext

/-- Every step of a call keeps the accounts. -/
theorem advance_keeps (hr : s.reading=some r)
    (hstep : s.advance r=some (s',new)) : Keeps t s' new := by
  obtain ⟨hopen,hfits,hstage⟩ := h.reading r hr
  unfold Input.advance at hstep
  split at hstep
  · split at hstep
    · rename_i hfull
      cases hstep
      exact keeps_count h hr (hfits.some.trans_le hfull)
    rename_i hroom
    split at hstep
    · rename_i hexhausted
      have hcurrent := h.current_none hexhausted
      split at hstep
      · rename_i chunk s₁ hnext
        have hkeeps := receive_keeps h hr (Nat.lt_of_not_le hroom) hcurrent hnext
        rw [some.inj hstep] at hkeeps
        exact hkeeps
      · split_ifs at hstep with hzero
        · cases hstep
          exact keeps_silent h
        · cases hstep
          exact keeps_count h hr (Nat.pos_of_ne_zero hzero)
    · rename_i hexhausted
      cases hstep
      refine keeps_silent (h.moveOn hr ⟨?_,Nat.lt_of_not_le hroom⟩)
      cases hcurrent : s.current with
      | none =>
        rw [Input.exhausted,hcurrent] at hexhausted
        exact absurd rfl hexhausted
      | some data => rfl
  · rename_i size hsize
    cases hstep
    exact keeps_silent (h.moveOn hr (hstage (by rw [hsize]; exact Stage.noConfusion)))
  · rename_i hcopying
    have hsome := (hstage (by rw [hcopying]; exact Stage.noConfusion)).1
    split at hstep
    · rename_i hnone
      rw [hnone] at hsome
      cases hsome
    · rename_i data hdata
      obtain ⟨s₁,hcopy,heq⟩ := map_eq_some_iff.mp hstep
      cases heq
      exact keeps_silent (h.copy hr hdata hcopy)

theorem read_keeps (hidle : s.reading=none) {b : Bytes}
    {off len : ℕ} (hfits : off+len≤b.length) :
    Keeps t (s.read b off len).1 (s.read b off len).2 := by
  unfold Input.read
  split_ifs with hzero hend
  · refine keeps_event (h.endRead (progress_idle hidle) Bool.noConfusion) ?_
    exact ⟨rfl,Nat.zero_le _,fun hpos => absurd hzero hpos.ne'⟩
  · refine keeps_event (h.endRead (progress_idle hidle) fun _ => hend.1) ?_
    exact ⟨rfl,Nat.pos_of_ne_zero hzero,h.delivered_finished hend.1,.inl (h.reported.mp hend.1)⟩
  · have hopen : s.finished=false := by
      cases hf : s.finished with
      | false => rfl
      | true => exact absurd ⟨hf,(h.finished hf).1⟩ hend
    exact keeps_silent (h.beginRead hidle hopen hfits (Nat.pos_of_ne_zero hzero))

/-- Every step of either thread keeps the accounts. -/
theorem exec_keeps {a : Action} (ha : allowed s a=true)
    (hstep : exec s a=some (s',new)) : Keeps t s' new := by
  cases a with
  | attachChannel =>
    cases hstep
    exact keeps_silent h
  | offerData bytes =>
    simp only [exec,Input.offerData] at hstep
    split_ifs at hstep with hempty
    · cases hstep
      exact keeps_silent h
    · cases hstep
      exact keeps_event (h.put (by simpa using hempty)) trivial
  | countOffered =>
    cases hstep
    have hcounted : Exact t s.countOffered.toBuffer taken := by
      unfold Input.countOffered
      split <;> exact h
    exact keeps_silent hcounted
  | offerEnd | offerError cause =>
    cases hstep
    exact keeps_event (h.put Chunk.noConfusion) trivial
  | resume =>
    simp only [exec] at hstep
    split_ifs at hstep <;> cases hstep <;> exact keeps_silent h
  | read b off len =>
    simp only [allowed,Bool.and_eq_true,isNone_iff_eq_none,decide_eq_true_eq] at ha
    have hkeeps := read_keeps h ha.1 ha.2
    rw [some.inj hstep] at hkeeps
    exact hkeeps
  | advance =>
    simp only [exec] at hstep
    split at hstep
    · cases hstep
      exact keeps_silent h
    · rename_i r hr
      exact advance_keeps h hr hstep
  | interrupt =>
    obtain ⟨r,hr,htaking⟩ := (any_eq_true _ _).mp ha
    simp only [exec,hr] at hstep
    cases hstep
    refine keeps_event (h.endRead (progress_eq hr) Bool.noConfusion) ⟨?_,h.not_reported hr⟩
    simp only [Input.taking,Bool.and_eq_true,decide_eq_true_eq] at htaking
    rw [Reading.copied,htaking.1.1.2,take_zero]

end

/-- Along every run the accounts are kept, and every call ends rightly. -/
theorem exact_of_run {t : List Event} (h : machine.Run always t s) :
    (∃ taken, Exact t s.toBuffer taken) ∧ Guarded Rightly t := by
  refine h.invariant (fun t s => (∃ taken, Exact t s.toBuffer taken) ∧ Guarded Rightly t) ?_ ?_
  · rintro s rfl
    exact ⟨⟨[],exact_fresh⟩,guarded_nil _⟩
  · rintro t s a s' new ⟨⟨taken,hexact⟩,hguarded⟩ ha-hstep
    obtain ⟨hnext,hrightly,hone⟩ := exec_keeps hexact ha hstep
    refine ⟨hnext,?_⟩
    match new,hrightly,hone with
    | [],_,_ => rwa [append_nil]
    | [e],hrightly,_ => exact hguarded.concat (hrightly e mem_cons_self)

end Results

section Progress

variable {t : List Event} {taken : List Chunk} {r : Reading}
variable {s : Input}

/-- A call that can go on ends, or comes nearer to its end and can still go on. -/
def Nearer (r : Reading) (s' : Input) : Prop :=
  s'.reading=none ∨ ∃ r', s'.reading=some r' ∧ r'.left<r.left ∧ s'.Ready r'

theorem copy_nearer (h : Exact t s.toBuffer taken) (hr : s.reading=some r)
    (hstage : r.stage=.copying) {data : Bytes} (hdata : s.current=some data) :
    ∃ s', s.copy r data=some s' ∧ Nearer r s' := by
  obtain ⟨-,hfits,hinside⟩ := h.reading r hr
  have hroom := (hinside (by rw [hstage]; exact Stage.noConfusion)).2
  have hpos := h.inside data hdata
  have hplace := hfits.inside
  have hbound : r.off+r.totalRead+((data.drop s.currentPos).take
      (min (r.len-r.totalRead) (data.length-s.currentPos))).length≤r.b.length := by
    rw [length_take]
    omega
  refine ⟨_,by rw [Input.copy,Input.arraycopy,if_pos hbound,map_some],
    .inr ⟨_,rfl,?_,.inl ?_⟩⟩
  · simp only [Reading.left]
    omega
  · change 0<r.totalRead+min (r.len-r.totalRead) (data.length-s.currentPos)
    omega

theorem receive_nearer (hstage : r.stage=.looping) (chunk : Chunk) :
    Nearer r (s.receive r chunk).1 := by
  by_cases hterminal : chunk.isTerminal=true
  · rw [receive_terminal hterminal]
    split <;> exact .inl rfl
  · cases chunk with
    | data bytes =>
      refine .inr ⟨_,rfl,?_,.inr (.inl Stage.noConfusion)⟩
      simp only [Reading.left,hstage]
      omega
    | eos | error cause => exact absurd rfl hterminal

section

variable (h : Exact t s.toBuffer taken)

include h

theorem advance_nearer (hr : s.reading=some r)
    (hready : s.Ready r) : ∃ s' new, s.advance r=some (s',new) ∧ Nearer r s' := by
  unfold Input.advance
  split
  · rename_i hstage
    split
    · exact ⟨_,_,rfl,.inl rfl⟩
    split
    · rename_i hexhausted
      cases hnext : s.nextChunk with
      | some next => exact ⟨_,_,rfl,receive_nearer hstage next.1⟩
      | none =>
        have hpos : 0<r.totalRead := by
          rcases hready with hpos | hother | hfull | hsome
          · exact hpos
          · exact absurd hstage hother
          · rw [hexhausted] at hfull
            cases hfull
          · rw [hnext] at hsome
            cases hsome
        exact ⟨_,_,by rw [if_neg hpos.ne'],.inl rfl⟩
    · refine ⟨_,_,rfl,.inr ⟨_,rfl,?_,.inr (.inl Stage.noConfusion)⟩⟩
      simp only [Reading.left,hstage]
      omega
  · rename_i size hstage
    refine ⟨_,_,rfl,.inr ⟨_,rfl,?_,.inr (.inl Stage.noConfusion)⟩⟩
    simp only [Reading.left,hstage]
    omega
  · rename_i hstage
    split
    · exact ⟨_,_,rfl,.inl rfl⟩
    · rename_i data hdata
      obtain ⟨s',hcopy,hnearer⟩ := copy_nearer h hr hstage hdata
      exact ⟨s',[],by rw [hcopy]; rfl,hnearer⟩

/-- A call that does not have to wait ends by its own steps. -/
theorem read_ends (hr : s.reading=some r) (hready : s.Ready r) :
    ∃ n s' new, machine.replay (fun _ _ => true) s (replicate n .advance)=some (s',new) ∧
        s'.reading=none := by
  induction hleft : r.left using Nat.strong_induction_on generalizing t s taken r with
  | _ left ih =>
    obtain ⟨s₁,new,hstep,hnearer⟩ := advance_nearer h hr hready
    have hexec : machine.exec s .advance=some (s₁,new) := by
      change exec s .advance=_
      rw [exec,hr]
      exact hstep
    rcases hnearer with hdone | ⟨r₁,hr₁,hless,hready₁⟩
    · refine ⟨1,s₁,new++[],?_,hdone⟩
      simp [Machine.replay,hexec]
    · obtain ⟨⟨taken₁,h₁⟩,-⟩ := advance_keeps h hr hstep
      obtain ⟨n,s₂,more,hreplay,hdone⟩ := ih r₁.left (by omega) h₁ hr₁ hready₁ rfl
      refine ⟨n+1,s₂,new++more,?_,hdone⟩
      rw [replicate_succ]
      simp [Machine.replay,hexec,hreplay]

/-- A call that has to wait finds everything returned that was offered, and no end. -/
theorem waiting_delivered (hr : s.reading=some r)
    (hwait : ¬s.Ready r) : Delivered t ∧ firstTerminal t=none := by
  simp only [Input.Ready,not_or,Bool.not_eq_false,Bool.not_eq_true] at hwait
  obtain ⟨hzero,-,hexhausted,hnext⟩ := hwait
  have hnone : s.pendingTerminal=none ∧ s.queue=[] := by
    unfold Input.nextChunk at hnext
    split at hnext
    · cases hnext
    · cases hnext
    · exact ⟨by assumption,by assumption⟩
  have hoffered := h.offered
  rw [hnone.1,hnone.2] at hoffered
  simp only [toList_none,append_nil] at hoffered
  have hpieces := h.unfinished (h.reading r hr).1
  have hreturned := h.returned
  rw [Buffer.progress,hr,Buffer.rest,h.current_none hexhausted] at hreturned
  have htotal := Nat.eq_zero_of_not_pos hzero
  simp only [Reading.copied,htotal,take_zero,append_nil] at hreturned
  refine ⟨?_,?_⟩
  · rw [Delivered,bytesBefore,hoffered,hreturned,takeWhile_eq_self_iff.mpr]
    intro chunk hmem
    rw [hpieces chunk hmem]
    rfl
  · rw [firstTerminal,hoffered,find?_eq_none]
    intro chunk hmem
    rw [hpieces chunk hmem]
    exact Bool.false_ne_true

/-- What was taken is the front of what was offered before the end. -/
theorem Exact.returned_front :
    returnedBytes t <+: bytesBefore t := by
  cases hf : s.finished with
  | true =>
    rw [h.delivered_finished hf]
  | false =>
    have hpieces : ∀ chunk∈taken, (!chunk.isTerminal)=true := fun chunk hmem => by
      rw [h.unfinished hf chunk hmem]
      rfl
    rw [bytesBefore,h.offered,takeWhile_append_of_pos hpieces,dataOf_append,←h.returned,
      append_assoc]
    exact prefix_append _ _

end

/-- Whatever is offered, however the calls are made and however the two threads
interleave: the bytes returned are the first of those offered before the end, in
order and each once. The end is reported after all of them, an error as an error
and once, and then every call for something ends with minus one. A call that
finds something ends by its own steps, and one that waits has nothing to wait
for but a further offer. -/
theorem input_exact {t : List Event} {s : Input} (h : machine.Run always t s) :
    returnedBytes t <+: bytesBefore t ∧ Guarded Rightly t ∧
      (∀ r, s.reading=some r → s.Ready r → ∃ n s' new,
        machine.replay (fun _ _ => true) s (List.replicate n .advance)=some (s',new) ∧
          s'.reading=none) ∧
      (∀ r, s.reading=some r → ¬s.Ready r → Delivered t ∧ firstTerminal t=none) := by
  obtain ⟨⟨taken,hexact⟩,hguarded⟩ := exact_of_run h
  exact ⟨hexact.returned_front,hguarded,fun r => read_ends hexact,
    fun r => waiting_delivered hexact⟩

/-- Two pieces and an error, read by three calls, the second across both pieces. -/
def spanningReads : List Action :=
  [.offerData [1,2,3],.countOffered,.offerData [4,5],.read [0,0] 0 2,.advance,.advance,.advance,
    .countOffered,.advance,.read [9,0,0,0,0] 1 4,.advance,.advance,.advance,.offerError "reset",
    .advance,.advance,.advance,.read [0] 0 1,.advance,.read [0] 0 1]

/-- The calls of that run return both pieces, then the error, then minus one. -/
theorem input_exact_spanning : ∃ t s, machine.Run always t s ∧
    (returnedBytes t=[1,2,3,4,5] ∧ .returned 1 (.failed "reset") []∈t ∧
      .returned 1 .minusOne []∈t) ∧ Guarded Rightly t :=
  Machine.exists_run_with allowed (fun _ _ _ h => ⟨h,trivial⟩) rfl spanningReads (by decide +kernel)
    fun _ _ h => (input_exact h).2.1

end Progress

end MsnGuard.StreamReads
