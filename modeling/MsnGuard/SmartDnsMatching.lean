import MsnGuard.SmartDnsSteps

/-!
# Replies on a shared socket

Every worker puts a number of its own on its query, but takes whatever datagram is next and puts
the number of the query back without looking at the one that came.
-/

namespace MsnGuard.SmartDnsMatching

open RustText SmartDnsMessages SmartDnsFront SmartDnsSteps TransitionRuns FiniteTables List

/-- Is a question the one of the message in a datagram, if there is one? -/
def answersQuestion (q : Option Bytes × ℕ) (datagram : Bytes) : Bool :=
  (contents datagram).all fun response => decide (question response=q)

/-- Does a datagram hold a reply to a message, with its number and its question? -/
def echoes (request datagram : Bytes) : Bool :=
  answersQuestion (question request) datagram &&
    (contents datagram).all fun response => decide (response.take 2=request.take 2)

/-- What comes in are replies to messages that have been sent, each at most once, with
any delay and in any order. -/
def honest (f : Front) : Action → Bool
  | .arrive request datagram => decide (request∈f.outstanding) && echoes request datagram
  | _ => true

/-- A query is sent only while nothing else is asked on the association: no other question
has a worker, a reply to come or a reply that is not taken yet. -/
def undisturbed (f : Front) : Action → Bool
  | .ask x true true => (f.tasks.lookup x).all fun task =>
      f.outstanding.all (fun request => decide (question request=question task.query)) &&
      f.buffer.all (answersQuestion (question task.query)) &&
      f.tasks.entries.all (fun e => decide
        (e.2.asking=some f.association → question e.2.query=question task.query))
  | _ => true

/-- A response has the number of the query and its question, and a name is learned from a
response to a question for it. -/
def Matches : Event → Prop
  | .relayed query response =>
      response.take 2=query.take 2 ∧ question response=question query
  | .learned name _ response => (queryName response).map lowercase=some name
  | _ => True

/-- The query of a worker could be read, and its association is not one to come. -/
structure Readable (association : ℕ) (task : Task) : Prop where
  length : 12≤task.query.length
  name : queryName task.query=some task.name
  opened : ∀ n, task.asking=some n → n≤association

/-- Every worker has a query that could be read. -/
def AllReadable (f : Front) : Prop :=
  ∀ x task, f.tasks.lookup x=some task → Readable f.association task

/-- Whatever can still be taken on the association answers one question, and the workers
that wait on it have asked that question. -/
structure Agreed (q : Option Bytes × ℕ) (f : Front) : Prop where
  workers : ∀ x task, f.tasks.lookup x=some task → task.asking=some f.association →
    question task.query=q
  outstanding : ∀ request∈f.outstanding, question request=q
  buffer : ∀ datagram∈f.buffer, answersQuestion q datagram=true

section Invariants

variable {f f' : Front} {a : Action} {events : List Event} {q : Option Bytes × ℕ}

theorem AllReadable.fewer (h : AllReadable f) (hfewer : Fewer f f') : AllReadable f' := by
  intro x task hx
  rw [hfewer.association]
  exact h x task (hfewer.tasks x task hx)

theorem AllReadable.insert (h : AllReadable f) {x : ℕ} {task : Task}
    (htasks : f'.tasks=f.tasks.insert x task) (hassociation : f'.association=f.association)
    (htask : Readable f.association task) : AllReadable f' := by
  intro y other hy
  rw [hassociation]
  rw [htasks,lookup_insert_eq] at hy
  split at hy
  · cases hy
    exact htask
  · exact h y other hy

theorem AllReadable.moves (h : AllReadable f) (hmoves : Moves false f a f' events) :
    AllReadable f' := by
  cases hmoves with
  | quiet hfewer _ _ | hit hfewer _ _ _ _ _ | received _ _ _ _ _ hfewer _ | resolved _ hfewer _ =>
    exact h.fewer hfewer
  | @enqueued _ g query name type hfewer _ hlength hname =>
    exact (h.fewer hfewer).insert rfl rfl ⟨hlength,hname,nofun⟩
  | @asked x token task _ _ hlookup htasks hassociation _ _ _ _ =>
    have htask := h x task hlookup
    refine h.insert htasks hassociation ⟨htask.length,htask.name,?_⟩
    rintro n ⟨⟩
    exact le_rfl
  | @arrived request datagram g hfewer _ =>
    have hg := h.fewer hfewer
    exact hg
  | closed htasks hassociation _ _ _ =>
    intro x task hx
    rw [htasks] at hx
    have htask := h x task hx
    refine ⟨htask.length,htask.name,fun n hn => ?_⟩
    rw [hassociation]
    exact (htask.opened n hn).trans (Nat.le_succ _)

theorem Agreed.fewer (h : Agreed q f) (hfewer : Fewer f f') : Agreed q f' := by
  refine ⟨?_,fun request hrequest => h.outstanding request (hfewer.outstanding hrequest),
    fun datagram hdatagram => h.buffer datagram (hfewer.buffer hdatagram)⟩
  intro x task hx hasking
  rw [hfewer.association] at hasking
  exact h.workers x task (hfewer.tasks x task hx) hasking

/-- A worker that is inserted asks the question or none, and so does what it sends. -/
theorem Agreed.insert (h : Agreed q f) {x : ℕ} {task : Task}
    (htasks : f'.tasks=f.tasks.insert x task) (hassociation : f'.association=f.association)
    (htask : task.asking=some f.association → question task.query=q)
    (houtstanding : ∀ request∈f'.outstanding, question request=q)
    (hbuffer : f'.buffer=f.buffer) : Agreed q f' := by
  refine ⟨?_,houtstanding,by rw [hbuffer]; exact h.buffer⟩
  intro y other hy hasking
  rw [hassociation] at hasking
  rw [htasks,lookup_insert_eq] at hy
  split at hy
  · cases hy
    exact htask hasking
  · exact h.workers y other hy hasking

/-- Under the condition everything on the association has the question that is sent. -/
theorem agreed_of_undisturbed {x : ℕ} {task : Task} (hlookup : f.tasks.lookup x=some task)
    (h : undisturbed f (.ask x true true)=true) : Agreed (question task.query) f := by
  rw [undisturbed,hlookup,Option.all_some,Bool.and_eq_true,Bool.and_eq_true] at h
  obtain ⟨⟨houtstanding,hbuffer⟩,hworkers⟩ := h
  refine ⟨?_,?_,all_eq_true.mp hbuffer⟩
  · intro y other hy
    have hentry := all_eq_true.mp hworkers ⟨y,other⟩ (AList.mem_lookup_iff.mp hy)
    exact of_decide_eq_true hentry
  · intro request hrequest
    exact of_decide_eq_true (all_eq_true.mp houtstanding request hrequest)

theorem Agreed.moves (h : Agreed q f) (hreadable : AllReadable f)
    (hmoves : Moves false f a f' events) (hhonest : honest f a=true) (hundisturbed : undisturbed f a=true) :
    ∃ q', Agreed q' f' := by
  cases hmoves with
  | quiet hfewer _ _ | hit hfewer _ _ _ _ _ | received _ _ _ _ _ hfewer _ | resolved _ hfewer _ =>
    exact ⟨q,h.fewer hfewer⟩
  | @enqueued _ g query name type hfewer _ _ _ =>
    have hg := h.fewer hfewer
    exact ⟨q,hg.insert rfl rfl nofun hg.outstanding rfl⟩
  | @asked x token task _ _ hlookup htasks hassociation houtstanding hbuffer _ _ =>
    have halone := agreed_of_undisturbed hlookup hundisturbed
    have hlength := (hreadable x task hlookup).length
    refine ⟨question task.query,halone.insert htasks hassociation (fun _ => rfl) ?_ hbuffer⟩
    rw [houtstanding]
    intro request hrequest
    rcases mem_append.mp hrequest with hold | hnew
    · exact halone.outstanding request hold
    · rw [mem_singleton.mp hnew,question_rewriteId (by omega)]
  | @arrived request datagram g hfewer _ =>
    have hg := h.fewer hfewer
    obtain ⟨hmem,hechoes⟩ := Bool.and_eq_true_iff.mp hhonest
    have hanswers : answersQuestion q datagram=true := by
      rw [←h.outstanding request (of_decide_eq_true hmem)]
      exact (Bool.and_eq_true_iff.mp hechoes).1
    refine ⟨q,hg.workers,hg.outstanding,?_⟩
    intro other hother
    rcases mem_append.mp hother with hold | hnew
    · exact hg.buffer other hold
    · rw [mem_singleton.mp hnew]
      exact hanswers
  | closed htasks hassociation houtstanding hbuffer _ =>
    refine ⟨q,?_,by rw [houtstanding]; simp,by rw [hbuffer]; simp⟩
    intro x task hx hasking
    rw [htasks] at hx
    rw [hassociation] at hasking
    have hopened := (hreadable x task hx).opened _ hasking
    omega

/-- What is true of a response and of the name it is learned for is true of the events. -/
theorem delivered_events {task : Task} {response : Bytes} {good : Event → Prop}
    (h : Delivered f task response f' events) (hrelayed : good (.relayed task.query response))
    (hlearned : ∀ time, good (.learned (lowercase task.name) time response)) :
    ∀ ev∈events, good ev := by
  intro ev hmem
  cases h with
  | relayed _ =>
    rw [mem_singleton.mp hmem]
    exact hrelayed
  | learned _ _ _ =>
    rcases mem_cons.mp hmem with rfl | hlast
    · exact hlearned f.now
    · rw [mem_singleton.mp hlast]
      exact hrelayed

/-- A step adds a response that a worker has received, or none. -/
theorem moves_events {good : Event → Prop} (hmoves : Moves false f a f' events)
    (haside : ∀ ev, Aside ev → good ev) (hhit : ∀ time query reply, good (.hit time query reply))
    (hreceived : ∀ x task datagram response, f.tasks.lookup x=some task →
      task.asking=some f.association → datagram∈f.buffer →
      contents datagram=some response → 12≤response.length →
      good (.relayed task.query (restoreId task.query response)) ∧
        ∀ time, good (.learned (lowercase task.name) time (restoreId task.query response))) :
    ∀ ev∈events, good ev := by
  cases hmoves with
  | quiet _ _ hevents | asked _ _ _ _ _ _ hevents => exact fun ev hev => haside ev (hevents ev hev)
  | hit _ _ _ _ _ _ =>
    intro ev hmem
    rw [mem_singleton.mp hmem]
    exact hhit _ _ _
  | enqueued _ _ _ _ | arrived _ _ | closed _ _ _ _ _ => simp
  | received hlookup hasking hdatagram hcontents hlength _ hdelivered =>
    obtain ⟨hrelayed,hlearned⟩ := hreceived _ _ _ _ hlookup hasking hdatagram hcontents hlength
    exact delivered_events hdelivered hrelayed hlearned
  | resolved hencrypted _ _ => cases hencrypted

/-- What a worker takes has its question. -/
theorem matches_of_moves (h : Agreed q f) (hreadable : AllReadable f)
    (hmoves : Moves false f a f' events) : ∀ ev∈events, Matches ev := by
  refine moves_events hmoves ?_ (fun _ _ _ => trivial) ?_
  · intro ev haside
    cases ev with
    | hit | learned | relayed => exact haside.elim
    | replied | asked | refused => trivial
  · intro x task datagram response hlookup hasking hdatagram hcontents hlength
    have htask := hreadable x task hlookup
    have hlong := htask.length
    have hsame : question response=q := by
      have hanswers := h.buffer datagram hdatagram
      rw [answersQuestion,hcontents] at hanswers
      exact of_decide_eq_true hanswers
    have hquestion : question (restoreId task.query response)=question task.query := by
      rw [question_restoreId (by omega) (by omega),hsame,h.workers x task hlookup hasking]
    have hname : queryName (restoreId task.query response)=some task.name :=
      (congrArg Prod.fst hquestion).trans htask.name
    refine ⟨⟨restoreId_take (by omega) response,hquestion⟩,fun time => ?_⟩
    change (queryName (restoreId task.query response)).map lowercase=_
    rw [hname,Option.map_some]

end Invariants

theorem allReadable_new : AllReadable Front.new := by
  nofun

theorem agreed_new : Agreed (none,0) Front.new :=
  ⟨nofun,nofun,nofun⟩

/-- Replies come in any order and with any delay. As long as a query is sent only while no
other question is asked on the association, every response that is handed over has the
number and the question of its query and every name is learned from a response for it. -/
theorem matches_of_run {t : List Event} {f : Front}
    (h : (machine false).Run (fun _ f a => (honest f a && undisturbed f a)=true) t f) :
    ∀ ev∈t, Matches ev := by
  refine (h.safe (fun f => AllReadable f ∧ ∃ q, Agreed q f) Matches ?_ ?_).2
  · rintro f rfl
    exact ⟨allReadable_new,_,agreed_new⟩
  · rintro t f a f' new ⟨hreadable,q,hagreed⟩ _ hcond hexec
    have hmoves := exec_moves hexec
    obtain ⟨hhonest,hundisturbed⟩ := Bool.and_eq_true_iff.mp hcond
    exact ⟨⟨hreadable.moves hmoves,hagreed.moves hreadable hmoves hhonest hundisturbed⟩,
      matches_of_moves hagreed hreadable hmoves⟩

/-- A reply comes in to the message with a number for a name. -/
def replied (number letter last : UInt8) : Action :=
  .arrive (sampleQuery number letter)
    (encapsulate currentResolver dnsPort (sampleResponse number letter last))

/-- Two workers ask for one name and take each other's reply, then one asks for another. -/
def oneQuestion : List Action :=
  [.query true (sampleQuery 7 97),.query true (sampleQuery 8 97),.ask 0 true true,
    .ask 1 true true,replied 2 97 9,replied 1 97 9,.receive 0,.receive 1,
    .query true (sampleQuery 9 98),.ask 2 true true,replied 3 98 5,.receive 2]

/-- The three responses. -/
def oneQuestionSeen (t : List Event) : Bool :=
  decide (.relayed (sampleQuery 7 97) (sampleResponse 7 97 9)∈t) &&
    decide (.relayed (sampleQuery 8 97) (sampleResponse 8 97 9)∈t) &&
    decide (.relayed (sampleQuery 9 98) (sampleResponse 9 98 5)∈t)

theorem own_answers : ∃ t f,
    (machine false).Run (fun _ f a => (honest f a && undisturbed f a)=true) t f ∧
    oneQuestionSeen t=true ∧ ∀ ev∈t, Matches ev :=
  Machine.exists_run_with (fun f a => honest f a && undisturbed f a) (fun _ _ _ ha => ⟨trivial,ha⟩)
    rfl oneQuestion (by decide +kernel) fun _ _ => matches_of_run

/-- Two workers ask for two names, and the replies come the other way round. -/
def twoQuestions : List Action :=
  [.query true (sampleQuery 7 97),.query true (sampleQuery 8 98),.ask 0 true true,
    .ask 1 true true,replied 2 98 5,.receive 0]

/-- The first gets the response for the name of the second, and learns it for its own. -/
def twoQuestionsSeen (t : List Event) : Bool :=
  decide (.relayed (sampleQuery 7 97) (sampleResponse 7 98 5)∈t) &&
    decide (.learned [97] 0 (sampleResponse 7 98 5)∈t)

/-- Every datagram is a reply to a message that was sent, and yet a response to another
question is handed over and kept for the name. -/
theorem other_answer : ∃ t f, (machine false).Run (fun _ f a => honest f a=true) t f ∧
    twoQuestionsSeen t=true ∧
    question (sampleResponse 7 98 5)≠question (sampleQuery 7 97) ∧
    (queryName (sampleResponse 7 98 5)).map lowercase≠some [97] := by
  exact Machine.exists_run honest (fun _ _ _ ha => ⟨trivial,ha⟩) rfl twoQuestions
    (by decide +kernel)

end MsnGuard.SmartDnsMatching
