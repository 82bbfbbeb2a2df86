import MsnGuard.HttpAnswers

/-!
# The cuts of an answer do not matter

Whatever the chunks in which an answer arrives, after each of them the reader is where a new one
is that gets all the bytes at once. This needs that no line of a chunked body is so long that it
may be refused before its end has come.
-/

namespace MsnGuard.HttpCuts

open RustText IncrementalReading HttpAnswers List

/-- What stands before a place in the buffer stands there in a longer one. -/
theorem take_drop_grow {buf buf' : Bytes} (hbuf : buf <+: buf') {last : ℕ}
    (hlast : last≤buf.length) (first : ℕ) :
    (buf'.drop first).take (last-first)=(buf.drop first).take (last-first) := by
  obtain ⟨rest,rfl⟩ := hbuf
  by_cases hfirst : first≤buf.length
  · rw [drop_append_of_le_length hfirst,
      take_append_of_le_length (by rw [length_drop]; omega)]
  · have hzero : last-first=0 := by omega
    rw [hzero,take_zero,take_zero]

section Heads

variable {w raw raw' : Bytes}

/-- Where the search for a head has looked there is no end of a head, and of the
body of a head that was found nothing has been read. -/
def HeadInv (w : Bytes) : HeadSearch → Prop
  | .searching headStart searched =>
    ∀ j, headStart≤j → j+4 ≤ searched → ¬Here HEAD_END w j
  | .found head => ∀ d, head.framing=.chunked d → d={}

/-- The place of the search. -/
def headPos : HeadSearch → ℕ
  | .searching headStart _ => headStart
  | .found head => head.bodyStart

theorem headInv_start (w : Bytes) (start : ℕ) : HeadInv w (.searching start start) := by
  intro j hj hlt
  omega

/-- The body of a head that has just come has not been read. -/
theorem framing_fresh {status : ℕ} {fields : Fields} {d : Dechunker}
    (h : framing status fields=.ok (.chunked d)) : d={} := by
  unfold framing at h
  split at h
  · cases h
  split at h
  · cases h
    rfl
  split at h
  · split at h <;> cases h
  · cases h

/-- A head that has come leads to a failure, past an interim answer, or to the
body, of which nothing has been read. -/
theorem headTurn_next (w : Bytes) (last : ℕ) (head : Bytes) :
    (∃ e, HeadSearch.headTurn last head=.fail e) ∨
      ∃ s', HeadSearch.headTurn last head=.next s' ∧ headPos s'=last+4 ∧ HeadInv w s' := by
  unfold HeadSearch.headTurn
  split
  · exact .inl ⟨_,rfl⟩
  split
  · exact .inr ⟨_,rfl,rfl,headInv_start w _⟩
  split
  · exact .inl ⟨_,rfl⟩
  · rename_i body hbody
    refine .inr ⟨_,rfl,rfl,fun d hd => ?_⟩
    dsimp only at hd
    rw [hd] at hbody
    exact framing_fresh hbody

variable {headStart searched last : ℕ}

section

variable (h : HeadInv w (.searching headStart searched))

include h

/-- How far the search has looked does not matter. -/
theorem head_search (hraw : raw <+: w) :
    findFrom HEAD_END raw (max (searched-3) headStart)=findFrom HEAD_END raw headStart :=
  findFrom_resume (by decide) hraw h

/-- The search waits for the end of the head. -/
theorem head_turn_none (hraw : raw <+: w)
    (hfound : findFrom HEAD_END raw headStart=none) :
    HeadSearch.turn raw (.searching headStart searched)=
      .wait (.searching headStart raw.length) := by
  rw [HeadSearch.turn,head_search h hraw,hfound]

/-- The end of the head has come. -/
theorem head_turn_some (hraw : raw <+: w)
    (hfound : findFrom HEAD_END raw headStart=some last) :
    HeadSearch.turn raw (.searching headStart searched)=
      HeadSearch.headTurn last ((raw.drop headStart).take (last-headStart)) := by
  rw [HeadSearch.turn,head_search h hraw,hfound]

/-- The end of a head that has come is found in every longer buffer. -/
theorem head_turn_grow (hraw : raw <+: raw')
    (hw : raw' <+: w) (hfound : findFrom HEAD_END raw headStart=some last) :
    HeadSearch.turn raw' (.searching headStart searched)=
      HeadSearch.turn raw (.searching headStart searched) := by
  have hend := here_length (by decide) ((findFrom_eq_some (by decide)).mp hfound).2.1
  have hslice := take_drop_grow hraw (show last≤raw.length by omega) headStart
  rw [head_turn_some h hw (findFrom_grow (by decide) hraw hfound),
    head_turn_some h (hraw.trans hw) hfound,hslice]

end

/-- The search for the head can be resumed. -/
theorem head_resumable (w : Bytes) : Resumable HeadSearch.turn headPos w (HeadInv w) := by
  intro raw s hraw hs
  cases s with
  | found head => exact .done fun _ _ _ => rfl
  | searching headStart searched =>
    cases hfound : findFrom HEAD_END raw headStart with
    | none =>
      have hlooked : HeadInv w (.searching headStart raw.length) :=
        searched_through (by decide) hraw hfound
      refine .wait _ (head_turn_none hs hraw hfound) fun raw' hgrow hw => ?_
      cases hfound' : findFrom HEAD_END raw' headStart with
      | none =>
        rw [head_turn_none hs hw hfound',head_turn_none hlooked hw hfound']
        exact ⟨rfl,nofun⟩
      | some last =>
        rw [head_turn_some hs hw hfound',head_turn_some hlooked hw hfound']
        refine ⟨rfl,?_⟩
        rcases headTurn_next w last _ with ⟨e,hfail⟩ | ⟨s',hnext,-⟩
        · rw [hfail]
          exact nofun
        · rw [hnext]
          exact nofun
    | some last =>
      obtain ⟨hstart,hhere,-⟩ := (findFrom_eq_some (by decide)).mp hfound
      have hend : last+4≤raw.length := here_length (by decide) hhere
      have hturn := head_turn_some hs hraw hfound
      rcases headTurn_next w last ((raw.drop headStart).take (last-headStart)) with
        ⟨e,hfail⟩ | ⟨s',hnext,hpos,hinv⟩
      · exact .fail e fun raw' hgrow hw =>
          (head_turn_grow hs hgrow hw hfound).trans (hturn.trans hfail)
      · refine .next s' (fun raw' hgrow hw =>
          (head_turn_grow hs hgrow hw hfound).trans (hturn.trans hnext)) ?_ ?_ hinv
        · rw [headPos]
          omega
        · rw [hpos]
          exact hend

end Heads

section Chunks

variable {w body body' : Bytes} {d d' : Dechunker} {last : ℕ}

/-- A reader of a chunked body that has not looked beyond its place. -/
def clean (d : Dechunker) : Dechunker := {d with searched := d.pos}

/-- Where the search for the end of a line has looked there is none, and the
reader is where one comes that has the whole body. -/
structure ChunkInv (w : Bytes) (d : Dechunker) : Prop where
  searched : ∀ j, d.pos≤j → j+2≤d.searched → ¬Here CRLF w j
  trail : clean d∈trail Dechunker.turn w (w.length+1) {}

theorem chunkInv_start (w : Bytes) : ChunkInv w {} := by
  refine ⟨fun j _ hj => ?_,mem_cons_self⟩
  change j+2≤0 at hj
  omega

/-- A line that has come leads on, unless it is not the size of a chunk. -/
theorem lineTurn_cases (d : Dechunker) (line : Bytes) :
    d.lineTurn line=.fail (malformed "a bad chunk size") ∨
      ∃ d', d.lineTurn line=.next d' ∧ d'.pos=d.pos ∧ d'.searched=d.searched := by
  unfold Dechunker.lineTurn
  split
  · exact .inr ⟨_,rfl,rfl,rfl⟩
  split
  · exact .inl rfl
  · exact .inr ⟨_,rfl,rfl,rfl⟩
  · exact .inr ⟨_,rfl,rfl,rfl⟩

/-- How far the search has looked does not matter. -/
theorem line_search (h : ∀ j, d.pos≤j → j+2≤d.searched → ¬Here CRLF w j)
    (hbody : body <+: w) : findFrom CRLF body (max (d.searched-1) d.pos)=findFrom CRLF body d.pos :=
  findFrom_resume (by decide) hbody h

section Turns

variable (h : ChunkInv w d) (hdone : d.done=false)

include hdone

theorem data_turn {size : ℕ} (hdata : d.data=some size) (body : Bytes) :
    Dechunker.turn body d=d.dataTurn body size := by
  rw [Dechunker.turn,hdone,hdata]
  rfl

include h

/-- The end of a line has not come. -/
theorem line_turn_none (hdata : d.data=none) (hbody : body <+: w)
    (hfound : findFrom CRLF body d.pos=none) :
    Dechunker.turn body d=if MAX_LINE<body.length-d.pos then .fail (malformed "a line too long")
      else .wait {d with searched := body.length} := by
  rw [Dechunker.turn,hdone,hdata,line_search h.searched hbody,hfound]
  rfl

/-- The end of a line has come. -/
theorem line_turn_some (hdata : d.data=none) (hbody : body <+: w)
    (hfound : findFrom CRLF body d.pos=some last) :
    Dechunker.turn body d=Dechunker.lineTurn {d with pos := last+2,searched := last+2}
      ((body.drop d.pos).take (last-d.pos)) := by
  rw [Dechunker.turn,hdone,hdata,line_search h.searched hbody,hfound]
  rfl

end Turns

/-- A reader that takes another turn has moved forward and has not looked ahead. -/
theorem turn_moves (hnext : Dechunker.turn body d=.next d') :
    d.pos<d'.pos ∧ d'.pos≤body.length ∧ d'.searched=d'.pos := by
  unfold Dechunker.turn at hnext
  split at hnext
  · cases hnext
  split at hnext
  · unfold Dechunker.dataTurn at hnext
    dsimp only at hnext
    split at hnext
    · cases hnext
    split at hnext
    · cases hnext
    split_ifs at hnext
    cases hnext
    dsimp only
    omega
  split at hnext
  · split at hnext <;> cases hnext
  · rename_i last hfound
    obtain ⟨hstart,hhere,-⟩ := (findFrom_eq_some (by decide)).mp hfound
    have hend : last+2≤body.length := here_length (by decide) hhere
    rcases lineTurn_cases {d with pos := last+2,searched := last+2}
      ((body.drop d.pos).take (last-d.pos)) with hfail | ⟨d₁,hd₁,hp,hs⟩
    · rw [hfail] at hnext
      cases hnext
    · rw [hd₁] at hnext
      cases hnext
      rw [hp,hs]
      dsimp only
      omega

/-- A reader that has not looked ahead takes the same turn on the whole body. -/
theorem clean_next (h : ChunkInv w d) (hnext : Dechunker.turn w d=.next d') :
    Dechunker.turn w (clean d)=.next d' := by
  have hsearch := line_search h.searched prefix_rfl
  unfold Dechunker.turn Dechunker.dataTurn at hnext ⊢
  unfold clean
  dsimp only at hnext ⊢
  rw [Nat.max_eq_right (Nat.sub_le _ _),←hsearch]
  split at hnext
  · cases hnext
  rename_i hdone
  rw [if_neg hdone]
  split at hnext
  · split_ifs at hnext ⊢
    exact hnext
  · rename_i hdata
    rw [hdata]
    split at hnext
    · split at hnext <;> cases hnext
    · rw [hdata] at hnext
      exact hnext

/-- What is known is kept by a turn. -/
theorem chunkInv_next (h : ChunkInv w d) (hnext : Dechunker.turn w d=.next d') : ChunkInv w d' := by
  obtain ⟨-,-,hsearched⟩ := turn_moves hnext
  have hclean : clean d'=d' := by
    cases d'
    cases hsearched
    rfl
  refine ⟨fun j hj hlt => ?_,?_⟩
  · omega
  · rw [hclean]
    refine mem_trail_next Dechunker.pos (fun hs => ?_) _ (Nat.lt_add_left _ ?_)
      h.trail (clean_next h hnext)
    · obtain ⟨hlt,hle,-⟩ := turn_moves hs
      exact ⟨hlt,hle⟩
    · exact Nat.lt_succ_self _

/-- The data of a chunk is read in the same way from every longer body. -/
theorem data_steady (h : ChunkInv w d) (hdone : d.done=false) {size : ℕ}
    (hdata : d.data=some size) (hbody : body <+: w) :
    Steady Dechunker.turn Dechunker.pos w (ChunkInv w) body d := by
  have hturn := data_turn hdone hdata
  by_cases hsize : USIZE≤d.pos+size+2
  · refine .fail (malformed "a chunk too large") fun body' _ _ => ?_
    rw [hturn,Dechunker.dataTurn,if_pos hsize]
  by_cases hlen : body.length<d.pos+size+2
  · refine .wait d ?_ fun body' _ _ => ⟨rfl,?_⟩
    · rw [hturn,Dechunker.dataTurn,if_neg hsize,if_pos hlen]
    · rw [hturn,Dechunker.dataTurn,if_neg hsize]
      split
      · exact nofun
      split <;> exact nofun
  have hlast : ∀ body', body <+: body' →
      (body'.drop (d.pos+size+2-2)).take 2=(body.drop (d.pos+size+2-2)).take 2 := by
    intro body' hgrow
    have hslice := take_drop_grow hgrow (show d.pos+size+2≤body.length by omega) (d.pos+size)
    rwa [Nat.add_sub_cancel_left] at hslice
  have hchunk : ∀ body', body <+: body' →
      (body'.drop d.pos).take size=(body.drop d.pos).take size := by
    intro body' hgrow
    have hslice := take_drop_grow hgrow (show d.pos+size≤body.length by omega) d.pos
    rwa [Nat.add_sub_cancel_left] at hslice
  have hlong : ∀ body', body <+: body' → ¬body'.length<d.pos+size+2 := by
    intro body' hgrow
    have := hgrow.length_le
    omega
  by_cases hcrlf : (body.drop (d.pos+size+2-2)).take 2=CRLF
  · have hnext : ∀ body', body <+: body' → Dechunker.turn body' d=.next
        {d with joined := d.joined++(body.drop d.pos).take size
                pos := d.pos+size+2
                searched := d.pos+size+2
                data := none} := by
      intro body' hgrow
      rw [hturn,Dechunker.dataTurn,if_neg hsize,if_neg (hlong body' hgrow),hlast body' hgrow,
        if_neg (not_not.mpr hcrlf),hchunk body' hgrow]
    refine .next _ (fun body' hgrow _ => hnext body' hgrow) ?_ ?_ (chunkInv_next h (hnext w hbody))
    · dsimp only
      omega
    · dsimp only
      omega
  · refine .fail (malformed "no line end after a chunk") fun body' hgrow _ => ?_
    rw [hturn,Dechunker.dataTurn,if_neg hsize,if_neg (hlong body' hgrow),hlast body' hgrow,
      if_pos hcrlf]

variable (hshort : ∀ line∈chunkLines w, line.length<MAX_LINE)

include hshort

/-- The line at which a reader stands is short. -/
theorem line_short (h : ChunkInv w d) (hdone : d.done=false) (hdata : d.data=none)
    (hfound : findFrom CRLF w d.pos=some last) : last-d.pos<MAX_LINE := by
  have hend := here_length (by decide) ((findFrom_eq_some (by decide)).mp hfound).2.1
  have hline : Dechunker.line w (clean d)=some ((w.drop d.pos).take (last-d.pos)) := by
    have hnot : ¬((clean d).done=true ∨ (clean d).data.isSome=true) := by
      rw [clean,hdone,hdata]
      decide
    rw [Dechunker.line,if_neg hnot,clean]
    rw [hfound,Option.map_some]
  have hlt := hshort _ (mem_filterMap.mpr ⟨clean d,h.trail,hline⟩)
  rw [length_take,length_drop] at hlt
  omega

/-- A line is read in the same way from every longer body. -/
theorem line_steady (h : ChunkInv w d) (hdone : d.done=false) (hdata : d.data=none)
    (hbody : body <+: w) : Steady Dechunker.turn Dechunker.pos w (ChunkInv w) body d := by
  cases hfound : findFrom CRLF body d.pos with
  | none =>
    have hturn := line_turn_none h hdone hdata hbody hfound
    by_cases hlong : MAX_LINE<body.length-d.pos
    · refine .fail (malformed "a line too long") fun body' hgrow hw => ?_
      cases hfound' : findFrom CRLF body' d.pos with
      | none =>
        have hlength := hgrow.length_le
        rw [line_turn_none h hdone hdata hw hfound',if_pos (by omega)]
      | some last =>
        -- The end of the line would lie beyond the bound.
        have hlt := line_short hshort h hdone hdata (findFrom_grow (by decide) hw hfound')
        obtain ⟨hstart,hhere,-⟩ := (findFrom_eq_some (by decide)).mp hfound'
        have hbeyond : ¬last+2≤body.length := by
          intro hle
          exact (findFrom_eq_none (by decide)).mp hfound last hstart
            ((here_grow hgrow hle).mpr hhere)
        omega
    · rw [if_neg hlong] at hturn
      have hlooked : ChunkInv w {d with searched := body.length} :=
        ⟨searched_through (by decide) hbody hfound,h.trail⟩
      refine .wait _ hturn fun body' hgrow hw => ?_
      cases hfound' : findFrom CRLF body' d.pos with
      | none =>
        rw [line_turn_none h hdone hdata hw hfound',line_turn_none hlooked hdone hdata hw hfound']
        refine ⟨rfl,?_⟩
        split <;> exact nofun
      | some last =>
        rw [line_turn_some h hdone hdata hw hfound',line_turn_some hlooked hdone hdata hw hfound']
        refine ⟨rfl,?_⟩
        rcases lineTurn_cases {d with pos := last+2,searched := last+2}
          ((body'.drop d.pos).take (last-d.pos)) with hfail | ⟨d',hnext,-⟩
        · rw [hfail]
          exact nofun
        · rw [hnext]
          exact nofun
  | some last =>
    obtain ⟨hstart,hhere,-⟩ := (findFrom_eq_some (by decide)).mp hfound
    have hend : last+2≤body.length := here_length (by decide) hhere
    have hturn : ∀ body', body <+: body' → body' <+: w → Dechunker.turn body' d=
        Dechunker.lineTurn {d with pos := last+2,searched := last+2}
          ((body.drop d.pos).take (last-d.pos)) := by
      intro body' hgrow hw
      rw [line_turn_some h hdone hdata hw (findFrom_grow (by decide) hgrow hfound),
        take_drop_grow hgrow (by omega) d.pos]
    rcases lineTurn_cases {d with pos := last+2,searched := last+2}
      ((body.drop d.pos).take (last-d.pos)) with hfail | ⟨d',hnext,hpos,-⟩
    · exact .fail _ fun body' hgrow hw => (hturn body' hgrow hw).trans hfail
    · refine .next d' (fun body' hgrow hw => (hturn body' hgrow hw).trans hnext) ?_ ?_
        (chunkInv_next h ((hturn w hbody prefix_rfl).trans hnext))
      · rw [hpos]
        dsimp only
        omega
      · rw [hpos]
        exact hend

/-- The reader of a chunked body can be resumed. -/
theorem chunk_resumable : Resumable Dechunker.turn Dechunker.pos w (ChunkInv w) := by
  intro body d hbody h
  cases hdone : d.done with
  | true =>
    refine .done fun body' _ _ => ?_
    rw [Dechunker.turn,hdone]
    rfl
  | false =>
    cases hdata : d.data with
    | some size => exact data_steady h hdone hdata hbody
    | none => exact line_steady hshort h hdone hdata hbody

end Chunks

section Answers

variable {w v v' chunk : Bytes}
variable {s : HeadSearch} {head : Http1Head} {n : ℕ} {d : Dechunker} {a : Http1Answer}

/-- A search that does not go on or fail waits for the end of a line. -/
theorem turn_searching (start looked : ℕ) :
    HeadSearch.turn v (.searching start looked)≠.done ∧
      ∀ s', HeadSearch.turn v (.searching start looked)=.wait s' →
        ∃ start looked, s'=.searching start looked := by
  rw [HeadSearch.turn]
  split
  · refine ⟨nofun,?_⟩
    rintro s' ⟨⟩
    exact ⟨_,_,rfl⟩
  · rename_i last _
    rcases headTurn_next v last ((v.drop start).take (last-start)) with ⟨e,hfail⟩ | ⟨s₁,hnext,-⟩
    · rw [hfail]
      exact ⟨nofun,nofun⟩
    · rw [hnext]
      exact ⟨nofun,nofun⟩

theorem turn_wait {s' : HeadSearch} (h : HeadSearch.turn v s=.wait s') :
    ∃ start looked, s'=.searching start looked := by
  cases s with
  | found head => cases h
  | searching start looked => exact (turn_searching start looked).2 s' h

theorem turn_done (h : HeadSearch.turn v s=.done) : ∃ head, s=.found head := by
  cases s with
  | found head => exact ⟨head,rfl⟩
  | searching start looked => exact absurd h (turn_searching start looked).1

/-- What the search for the head gives on a beginning of the answer and on a
longer one: a failure, a place from which it goes on, or the head, of whose body
nothing has been read. -/
theorem head_reads (hv : v <+: v') (hw : v' <+: w) :
    (∃ e, run HeadSearch.turn v (.searching 0 0)=.error e ∧
        run HeadSearch.turn v' (.searching 0 0)=.error e) ∨
      (∃ start looked, run HeadSearch.turn v (.searching 0 0)=.ok (.searching start looked,false) ∧
        run HeadSearch.turn v' (.searching start looked)=run HeadSearch.turn v' (.searching 0 0)) ∨
      ∃ head, run HeadSearch.turn v (.searching 0 0)=.ok (.found head,true) ∧
        run HeadSearch.turn v' (.searching 0 0)=.ok (.found head,true) ∧
        ∀ d, head.framing=.chunked d → d={} := by
  have hstart := headInv_start w 0
  have hpos : headPos (.searching 0 0)≤v.length := Nat.zero_le _
  have hreader := head_resumable w
  cases hrun : run HeadSearch.turn v (.searching 0 0) with
  | error e => exact .inl ⟨e,rfl,hreader.grow_error hstart hpos hv hw hrun⟩
  | ok r =>
    obtain ⟨s,stopped⟩ := r
    cases stopped with
    | false =>
      obtain ⟨s₁,-,hwait⟩ := hreader.stops_wait hstart hpos (hv.trans hw) hrun
      obtain ⟨start,looked,rfl⟩ := turn_wait hwait
      exact .inr (.inl ⟨start,looked,rfl,hreader.grow_wait hstart hpos hv hw hrun⟩)
    | true =>
      obtain ⟨hinv,hdone⟩ := hreader.stops_done hstart hpos (hv.trans hw) hrun
      obtain ⟨head,rfl⟩ := turn_done hdone
      exact .inr (.inr ⟨head,rfl,hreader.grow_done hstart hpos hv hw hrun,hinv⟩)

/-- A push that is not too much. -/
theorem push_eq (a : Http1Answer) (hsize : (a.raw++chunk).length≤MAX_BODY) :
    a.push chunk=(run HeadSearch.turn (a.raw++chunk) a.head).bind
      fun (head,_) => Http1Answer.readBody (a.raw++chunk) head :=
  if_neg (Nat.not_lt.mpr hsize)

theorem push_start (hsize : v.length≤MAX_BODY) :
    Http1Answer.push {} v=(run HeadSearch.turn v (.searching 0 0)).bind
      fun (head,_) => Http1Answer.readBody v head := push_eq {} hsize

/-- What was read of a body, in terms of a longer answer. -/
structure Regrown (head : Http1Head) (v v' : Bytes) (a : Http1Answer) (whole : Bool) : Prop where
  raw : a.raw=v
  again : ∃ head', a.head=.found head' ∧
    Http1Answer.readBody v' (.found head')=Http1Answer.readBody v' (.found head)
  whole : whole=true → ∃ a', Http1Answer.readBody v' (.found head)=.ok (a',true) ∧
    a'.finish=a.finish

theorem body_length (hframing : head.framing=.length n) (v : Bytes) :
    Http1Answer.readBody v (.found head)=
      .ok (⟨v,.found head⟩,n≤(v.drop head.bodyStart).length) := by
  rw [Http1Answer.readBody,hframing]

theorem body_chunked (hframing : head.framing=.chunked d) (v : Bytes) :
    Http1Answer.readBody v (.found head)=(d.advance (v.drop head.bodyStart)).map fun (d,whole) =>
        (⟨v,.found {head with framing := .chunked d}⟩,whole) := by
  rw [Http1Answer.readBody,hframing]

/-- A body of a given length. -/
theorem regrown_length (hframing : head.framing=.length n) (hv : v <+: v') :
    Regrown head v v' ⟨v,.found head⟩ (decide (n≤(v.drop head.bodyStart).length)) := by
  refine ⟨rfl,⟨head,rfl,rfl⟩,fun hwhole => ?_⟩
  have hn := of_decide_eq_true hwhole
  have hbody := hv.drop head.bodyStart
  have hn' := hn.trans hbody.length_le
  refine ⟨⟨v',.found head⟩,?_,?_⟩
  · rw [body_length hframing,decide_eq_true hn']
  · obtain ⟨rest,hrest⟩ := hbody
    rw [Http1Answer.finish,Http1Answer.finish]
    dsimp only
    rw [hframing]
    dsimp only
    rw [if_neg (by omega),if_neg (by omega),←hrest,take_append_of_le_length hn]

/-- A chunked body of which nothing has been read. -/
theorem regrown_chunked (hframing : head.framing=.chunked {})
    (hshort : ∀ line∈chunkLines (w.drop head.bodyStart), line.length<MAX_LINE) (hv : v <+: v')
    (hw : v' <+: w) {whole : Bool}
    (hrun : Dechunker.advance {} (v.drop head.bodyStart)=.ok (d,whole)) :
    Regrown head v v' ⟨v,.found {head with framing := .chunked d}⟩ whole := by
  have hreader := chunk_resumable hshort
  have hstart := chunkInv_start (w.drop head.bodyStart)
  have hbody := hv.drop head.bodyStart
  have hbodyw := hw.drop head.bodyStart
  have hpos : Dechunker.pos {}≤(v.drop head.bodyStart).length := Nat.zero_le _
  have hadvance : d.advance (v'.drop head.bodyStart)=
      Dechunker.advance {} (v'.drop head.bodyStart) := by
    cases whole with
    | false => exact hreader.grow_wait hstart hpos hbody hbodyw hrun
    | true =>
      exact (hreader.stays_done hstart hpos hbody hbodyw hrun).trans
        (hreader.grow_done hstart hpos hbody hbodyw hrun).symm
  refine ⟨rfl,⟨_,rfl,?_⟩,fun hwhole => ?_⟩
  · rw [body_chunked hframing,body_chunked rfl]
    rw [hadvance]
  · cases hwhole
    refine ⟨⟨v',.found {head with framing := .chunked d}⟩,?_,rfl⟩
    rw [body_chunked hframing]
    have hdone : Dechunker.advance {} (v'.drop head.bodyStart)=.ok (d,true) :=
      hreader.grow_done hstart hpos hbody hbodyw hrun
    rw [hdone]
    rfl

variable (hsize : w.length≤MAX_BODY) (hlines : ∀ line∈bodyLines w, line.length<MAX_LINE)

include hlines

/-- What was read of a body is read of it in a longer answer. -/
theorem body_grow (hhead : run HeadSearch.turn w (.searching 0 0)=
      .ok (.found head,true)) (hfresh : ∀ d, head.framing=.chunked d → d={}) (hv : v <+: v')
    (hw : v' <+: w) :
    (∀ e, Http1Answer.readBody v (.found head)=.error e →
        Http1Answer.readBody v' (.found head)=.error e) ∧
      ∀ a whole, Http1Answer.readBody v (.found head)=.ok (a,whole) →
        Regrown head v v' a whole := by
  cases hframing : head.framing with
  | length n =>
    rw [body_length hframing]
    refine ⟨nofun,fun a whole h => ?_⟩
    cases h
    exact regrown_length hframing hv
  | close =>
    have hclose : ∀ v, Http1Answer.readBody v (.found head)=.ok (⟨v,.found head⟩,false) := by
      intro v
      rw [Http1Answer.readBody,hframing]
    rw [hclose]
    refine ⟨nofun,fun a whole h => ?_⟩
    cases h
    exact ⟨rfl,⟨head,rfl,rfl⟩,nofun⟩
  | chunked d =>
    obtain rfl := hfresh d hframing
    have hshort : ∀ line∈chunkLines (w.drop head.bodyStart), line.length<MAX_LINE := by
      intro line hline
      refine hlines line ?_
      rw [bodyLines,hhead]
      obtain ⟨status,fields,bodyStart,framing⟩ := head
      dsimp only at hframing
      rw [hframing]
      exact hline
    rw [body_chunked hframing,body_chunked hframing]
    cases hrun : Dechunker.advance {} (v.drop head.bodyStart) with
    | error e =>
      have hagain : Dechunker.advance {} (v'.drop head.bodyStart)=.error e :=
        (chunk_resumable hshort).grow_error (chunkInv_start _) (Nat.zero_le _)
          (hv.drop head.bodyStart) (hw.drop head.bodyStart) hrun
      rw [hagain]
      exact ⟨fun _ h => h,nofun⟩
    | ok r =>
      refine ⟨nofun,fun a whole h => ?_⟩
      cases h
      exact regrown_chunked hframing hshort hv hw hrun

include hsize

/-- What a push of a beginning of the answer gives, in terms of a longer one. -/
theorem push_grow (hw : v++chunk <+: w) :
    (∀ e, Http1Answer.push {} v=.error e → Http1Answer.push {} (v++chunk)=.error e) ∧
      ∀ a whole, Http1Answer.push {} v=.ok (a,whole) → a.push chunk=Http1Answer.push {} (v++chunk) ∧
        (whole=true → ∃ a', Http1Answer.push {} (v++chunk)=.ok (a',true) ∧ a'.finish=a.finish) := by
  have hv : v <+: v++chunk := prefix_append v chunk
  have hlong : (v++chunk).length≤MAX_BODY := hw.length_le.trans hsize
  have hshort : v.length≤MAX_BODY := hv.length_le.trans hlong
  rw [push_start hshort,push_start hlong]
  rcases head_reads hv hw with ⟨e,hrun,hrun'⟩ | ⟨start,looked,hrun,hagain⟩ |
    ⟨head,hrun,hrun',hfresh⟩
  · rw [hrun,hrun']
    exact ⟨fun _ h => h,nofun⟩
  · rw [hrun]
    refine ⟨nofun,fun a whole h => ?_⟩
    cases h
    refine ⟨?_,nofun⟩
    rw [push_eq _ hlong]
    rw [hagain]
  · have hhead := (head_resumable w).grow_done (headInv_start w 0) (Nat.zero_le _)
      (hv.trans hw) prefix_rfl hrun
    obtain ⟨herror,hok⟩ := body_grow hlines hhead hfresh hv hw
    rw [hrun,hrun']
    refine ⟨herror,fun a whole h => ?_⟩
    obtain ⟨hraw,⟨head',hfound,hagain⟩,hwhole⟩ := hok a whole h
    refine ⟨?_,hwhole⟩
    have hlonger : (a.raw++chunk).length≤MAX_BODY := by rwa [hraw]
    rw [push_eq a hlonger,hfound,hraw]
    exact hagain

/-- Chunks one after the other are as good as all their bytes at once. -/
theorem pushAll_eq (chunks : List Bytes) (hw : chunks.flatten <+: w) :
    Http1Answer.pushAll chunks=Http1Answer.push {} chunks.flatten := by
  induction chunks using reverseRecOn with
  | nil => rfl
  | append_singleton chunks chunk ih =>
    rw [flatten_append,flatten_singleton] at hw ⊢
    obtain ⟨herror,hok⟩ := push_grow hsize hlines hw
    have hfront := ih ((prefix_append _ _).trans hw)
    have hstep : Http1Answer.pushAll (chunks++[chunk])=
        (Http1Answer.pushAll chunks).bind fun r => r.1.push chunk := by
      rw [Http1Answer.pushAll,foldlM_append]
      simp only [foldlM_cons,foldlM_nil,bind_pure]
      rfl
    rw [hstep,hfront]
    cases hpush : Http1Answer.push {} chunks.flatten with
    | error e => exact (herror e hpush).symm
    | ok r => exact (hok r.1 r.2 hpush).1

/-- Once an answer is whole it stays so, and nothing is added to it. -/
theorem push_whole (hv : v <+: v') (hw : v' <+: w) (h : Http1Answer.push {} v=.ok (a,true)) :
    ∃ a', Http1Answer.push {} v'=.ok (a',true) ∧ a'.finish=a.finish := by
  obtain ⟨rest,rfl⟩ := hv
  exact ((push_grow hsize hlines hw).2 a true h).2 rfl

theorem push_error {e : Text} (hv : v <+: v') (hw : v' <+: w)
    (h : Http1Answer.push {} v=.error e) : Http1Answer.push {} v'=.error e := by
  obtain ⟨rest,rfl⟩ := hv
  exact (push_grow hsize hlines hw).1 e h

/-- A reader that stops as soon as the answer is whole finds what all the bytes
at once give. -/
theorem receive_eq (rest : List Bytes) (hw : v++rest.flatten=w)
    (h : Http1Answer.push {} v=.ok (a,false)) :
    a.receive rest=(Http1Answer.push {} w).bind fun (a,_) => a.finish := by
  induction rest generalizing v a with
  | nil =>
    rw [flatten_nil,append_nil] at hw
    rw [←hw,h]
    rfl
  | cons chunk rest ih =>
    rw [flatten_cons,←append_assoc] at hw
    have hfront : v++chunk <+: w := ⟨rest.flatten,hw⟩
    rw [Http1Answer.receive,((push_grow hsize hlines hfront).2 a false h).1]
    cases hpush : Http1Answer.push {} (v++chunk) with
    | error e =>
      rw [push_error hsize hlines hfront prefix_rfl hpush]
      rfl
    | ok r =>
      obtain ⟨a',whole⟩ := r
      cases whole with
      | false => exact ih hw hpush
      | true =>
        obtain ⟨last,hlast,hfinish⟩ := push_whole hsize hlines hfront prefix_rfl hpush
        rw [hlast]
        exact hfinish.symm

end Answers

/-- For every two ways to cut an answer into chunks: at the same place of the
stream both readers are in the same state and say the same about the end, or both
have failed with the same error; where one says that the answer is whole, the
other one says so there and later; and both give the same result. -/
theorem cuts_agree {w : Bytes} (hsize : w.length≤MAX_BODY)
    (hlines : ∀ line∈bodyLines w, line.length<MAX_LINE) {cuts cuts' : List Bytes}
    (hcuts : cuts.flatten=w) (hcuts' : cuts'.flatten=w) :
    (∀ front front', front <+: cuts → front' <+: cuts' → front.flatten=front'.flatten →
        Http1Answer.pushAll front=Http1Answer.pushAll front') ∧
      (∀ front front', front <+: cuts → front' <+: cuts' → front.flatten <+: front'.flatten →
        ∀ a, Http1Answer.pushAll front=.ok (a,true) →
          ∃ a', Http1Answer.pushAll front'=.ok (a',true) ∧ a'.finish=a.finish) ∧
      Http1Answer.receive {} cuts=Http1Answer.receive {} cuts' := by
  have hfronts : ∀ {cuts front : List Bytes}, cuts.flatten=w → front <+: cuts →
      front.flatten <+: w := by
    rintro cuts front rfl ⟨rest,rfl⟩
    rw [List.flatten_append]
    exact List.prefix_append _ _
  have hempty : Http1Answer.push {} []=.ok ({},false) := rfl
  refine ⟨fun front front' hfront hfront' hsame => ?_,
    fun front front' hfront hfront' hle a ha => ?_,?_⟩
  · rw [pushAll_eq hsize hlines front (hfronts hcuts hfront),
      pushAll_eq hsize hlines front' (hfronts hcuts' hfront'),hsame]
  · rw [pushAll_eq hsize hlines front (hfronts hcuts hfront)] at ha
    rw [pushAll_eq hsize hlines front' (hfronts hcuts' hfront')]
    exact push_whole hsize hlines hle (hfronts hcuts' hfront') ha
  · rw [receive_eq hsize hlines cuts ((List.nil_append _).trans hcuts) hempty,
      receive_eq hsize hlines cuts' ((List.nil_append _).trans hcuts') hempty]

/-- An interim answer, then two chunks. -/
def twoChunks : Bytes :=
  encodeUtf8 ("HTTP/1.1 103 Early Hints\r\n\r\n" ++
    "HTTP/1.1 200 OK\r\nTransfer-Encoding: chunked\r\n\r\n" ++
    "2\r\nab\r\n1;x\r\nc\r\n0\r\n\r\n").toList

/-- One byte after the other gives what the answer at once gives. -/
theorem cuts_agree_bytes :
    Http1Answer.receive {} (twoChunks.map fun b => [b])=Http1Answer.receive {} [twoChunks] ∧
      Http1Answer.receive {} [twoChunks]=
        .ok (200,[("Transfer-Encoding".toList,"chunked".toList)],[97,98,99]) := by
  have hsize : twoChunks.length≤MAX_BODY := by decide +kernel
  have hlines : ∀ line∈bodyLines twoChunks, line.length<MAX_LINE := by
    have hall : (bodyLines twoChunks).all (fun line => line.length<MAX_LINE)=true := by
      decide +kernel
    exact fun line hline => of_decide_eq_true (List.all_eq_true.mp hall line hline)
  have hbytes : (twoChunks.map fun b => [b]).flatten=twoChunks := by
    rw [←List.flatMap_def,List.flatMap_singleton']
  refine ⟨(cuts_agree hsize hlines hbytes (List.flatten_singleton)).2.2,?_⟩
  decide +kernel

end MsnGuard.HttpCuts
