import MsnGuard.SmartDnsFront

/-!
# The steps of the DNS front

A step of the front does one of a few things. What is true in every run follows from these, and
not from the branches of the functions behind them.
-/

namespace MsnGuard.SmartDnsSteps

open RustText SmartDnsMessages SmartDnsFront FiniteTables Option

/-- The message that a worker reads out of a datagram. -/
def contents (datagram : Bytes) : Option Bytes := decapsulate (datagram.take udpBuffer)

/-- Neither the cache nor a response is concerned. -/
def Aside : Event → Prop
  | .hit _ _ _ | .learned _ _ _ | .relayed _ _ => False
  | _ => True

/-- The work of a front without some of it. -/
structure Fewer (f f' : Front) : Prop where
  tasks : ∀ x task, f'.tasks.lookup x=some task → f.tasks.lookup x=some task
  association : f'.association=f.association
  outstanding : f'.outstanding ⊆ f.outstanding
  buffer : f'.buffer ⊆ f.buffer

/-- The cache of a front without some of it, at the same time or later. -/
structure Older (f f' : Front) : Prop where
  nameCache : ∀ name cached, f'.nameCache name=some cached → f.nameCache name=some cached
  now : f.now≤f'.now

/-- The response to the query of a worker is handed over, and learned if it gives an
address. -/
inductive Delivered (f : Front) (task : Task) (response : Bytes) : Front → List Event → Prop
  | relayed {f' : Front} : Older f f' → Delivered f task response f' [.relayed task.query response]
  | learned {f' : Front} {address : Bytes} {ttl : BitVec 32} :
      parseFirstA response=some (address,ttl) →
      f'.nameCache=Function.update f.nameCache (lowercase task.name)
        (some ⟨address,ttl,f.now+ttl.toInt*1000⟩) →
      f'.now=f.now →
      Delivered f task response f'
        [.learned (lowercase task.name) f.now response,.relayed task.query response]

/-- What one step does. -/
inductive Moves (encrypted : Bool) (f : Front) : Action → Front → List Event → Prop
  | quiet {a : Action} {f' : Front} {events : List Event} : Fewer f f' → Older f f' →
      (∀ ev∈events, Aside ev) → Moves encrypted f a f' events
  | hit {a : Action} {f' : Front} {query name : Bytes} {cached : CachedAnswer} : Fewer f f' →
      Older f f' → 12≤query.length → queryName query=some name →
      f.nameCache (lowercase name)=some cached → cached.isLive f.now=true →
      Moves encrypted f a f' [.hit f.now query (aAnswer query cached.address cached.ttlSeconds)]
  | enqueued {a : Action} {g : Front} {query name : Bytes} {type : ℕ} : Fewer f g → Older f g →
      12≤query.length → queryName query=some name →
      Moves encrypted f a (g.enqueue query name type) []
  | asked {x token : ℕ} {task : Task} {f' : Front} {events : List Event} :
      f.tasks.lookup x=some task →
      f'.tasks=f.tasks.insert x {task with asking := some f.association} →
      f'.association=f.association →
      f'.outstanding=f.outstanding++[rewriteId task.query token] → f'.buffer=f.buffer →
      Older f f' → (∀ ev∈events, Aside ev) → Moves encrypted f (.ask x true true) f' events
  | arrived {request datagram : Bytes} {g : Front} : Fewer f g → Older f g →
      Moves encrypted f (.arrive request datagram) {g with buffer := g.buffer++[datagram]} []
  | received {a : Action} {x : ℕ} {task : Task} {datagram response : Bytes} {f' : Front}
      {events : List Event} : f.tasks.lookup x=some task → task.asking=some f.association →
      datagram∈f.buffer → contents datagram=some response → 12≤response.length →
      Fewer f f' → Delivered f task (restoreId task.query response) f' events →
      Moves encrypted f a f' events
  | resolved {a : Action} {task : Task} {answer : Bytes} {f' : Front} {events : List Event} :
      encrypted=true → Fewer f f' → Delivered f task answer f' events →
      Moves encrypted f a f' events
  | closed {a : Action} {f' : Front} : f'.tasks=f.tasks → f'.association=f.association+1 →
      f'.outstanding=[] → f'.buffer=[] → Older f f' → Moves encrypted f a f' []

section Steps

variable {encrypted : Bool} {f f' g : Front}
variable {query name : Bytes} {task : Task} {events : List Event} {x : ℕ}

/-- The same work. -/
theorem Fewer.same (htasks : f'.tasks=f.tasks) (hassociation : f'.association=f.association)
    (houtstanding : f'.outstanding=f.outstanding) (hbuffer : f'.buffer=f.buffer) : Fewer f f' :=
  ⟨fun _ _ h => htasks ▸ h,hassociation,houtstanding ▸ List.Subset.refl _,
    hbuffer ▸ List.Subset.refl _⟩

theorem Fewer.trans {f'' : Front} (h : Fewer f f') (h' : Fewer f' f'') : Fewer f f'' :=
  ⟨fun x task hx => h.tasks x task (h'.tasks x task hx),h'.association.trans h.association,
    List.Subset.trans h'.outstanding h.outstanding,List.Subset.trans h'.buffer h.buffer⟩

/-- A worker that is done. -/
theorem Fewer.finish (f : Front) (x : ℕ) : Fewer f (f.finish x) :=
  ⟨fun _ _ h => lookup_of_erase h,rfl,List.Subset.refl _,List.Subset.refl _⟩

/-- The same cache at the same time. -/
theorem Older.same (hcache : f'.nameCache=f.nameCache) (hnow : f'.now=f.now) : Older f f' :=
  ⟨fun _ _ h => hcache ▸ h,hnow.ge⟩

theorem answerOrAsk_moves (a : Action) (h : Fewer f g) (hcache : g.nameCache=f.nameCache)
    (hnow : g.now=f.now) (hlength : 12≤query.length) (hname : queryName query=some name)
    (type : ℕ) :
    Moves encrypted f a (g.answerOrAsk query name type).1 (g.answerOrAsk query name type).2 := by
  have holder : Older f g := .same hcache hnow
  unfold Front.answerOrAsk
  split
  · rename_i cached hcached
    split
    · rename_i hlive
      rw [hcache] at hcached
      rw [hnow] at hlive ⊢
      exact .hit h holder hlength hname hcached hlive.2
    · exact .enqueued h holder hlength hname
  · exact .enqueued h holder hlength hname

theorem byPolicy_moves (a : Action) (h : Fewer f g) (hcache : g.nameCache=f.nameCache)
    (hnow : g.now=f.now) (egressV4Only : Bool) (hlength : 12≤query.length)
    (hname : queryName query=some name) (type : ℕ) :
    Moves encrypted f a (g.byPolicy egressV4Only query name type).1
      (g.byPolicy egressV4Only query name type).2 := by
  unfold Front.byPolicy
  split
  · exact .quiet (h.trans (.same rfl rfl rfl rfl)) (.same hcache hnow) (by simp [Aside])
  · exact answerOrAsk_moves a h hcache hnow hlength hname type

theorem handleDnsQuery_moves (f : Front) (a : Action) (egressV4Only : Bool) (query : Bytes) :
    Moves encrypted f a (f.handleDnsQuery egressV4Only query).1
      (f.handleDnsQuery egressV4Only query).2 := by
  have hsame : Fewer f f := .same rfl rfl rfl rfl
  unfold Front.handleDnsQuery
  split
  · exact .quiet hsame (.same rfl rfl) (by simp)
  · rename_i hlength
    have hlong := not_lt.mp hlength
    split
    · exact .quiet hsame (.same rfl rfl) (by simp)
    · rename_i name hname
      dsimp only
      split
      · split
        · exact .quiet hsame (.same rfl rfl) (by simp [Aside])
        · have hmarked : Fewer f {f with
              nodataCache := Function.update f.nodataCache (lowercase name,queryType query) none} :=
            .same rfl rfl rfl rfl
          exact byPolicy_moves a hmarked rfl rfl egressV4Only hlong hname _
      · exact byPolicy_moves a hsame rfl rfl egressV4Only hlong hname _

theorem deliver_fewer (f : Front) (task : Task) (response : Bytes) :
    Fewer f (f.deliver task response).1 := by
  unfold Front.deliver
  split
  · unfold Front.learn
    cases parseFirstA response <;> exact .same rfl rfl rfl rfl
  · exact .same rfl rfl rfl rfl

theorem deliver_delivered (f : Front) (task : Task) (response : Bytes) :
    Delivered f task response (f.deliver task response).1 (f.deliver task response).2 := by
  unfold Front.deliver
  split
  · unfold Front.learn
    cases hparse : parseFirstA response with
    | none => exact .relayed (.same rfl rfl)
    | some parsed => exact .learned hparse rfl rfl
  · exact .relayed (.same rfl rfl)

/-- What is handed over depends on the cache and the time alone. -/
theorem Delivered.of_eq {response : Bytes} (h : Delivered g task response f' events)
    (hcache : g.nameCache=f.nameCache) (hnow : g.now=f.now) :
    Delivered f task response f' events := by
  cases h with
  | relayed holder => exact .relayed ⟨hcache ▸ holder.nameCache,hnow ▸ holder.now⟩
  | learned hparse hlearned hlater =>
    rw [hnow] at hlearned ⊢
    exact .learned hparse (hcache ▸ hlearned) (hlater.trans hnow)

theorem receive_moves (a : Action) (hlookup : f.tasks.lookup x=some task)
    (hasking : task.asking=some f.association) (h : f.receive x task=some (f',events)) :
    Moves encrypted f a f' events := by
  unfold Front.receive at h
  split at h
  · cases h
  · rename_i datagram rest hbuffer
    have htaken : Fewer f ({f with buffer := rest}.finish x) := by
      refine ⟨fun _ _ hy => lookup_of_erase hy,rfl,List.Subset.refl _,?_⟩
      rw [hbuffer]
      exact List.subset_cons_self _ _
    have hmem : datagram∈f.buffer := by
      rw [hbuffer]
      exact List.mem_cons_self
    split at h
    · cases h
      exact .quiet htaken (.same rfl rfl) (by simp)
    · rename_i response hresponse
      split at h
      · cases h
        exact .quiet htaken (.same rfl rfl) (by simp)
      · rename_i hlength
        have hsame := some_inj.mp h
        have hfewer := htaken.trans (deliver_fewer _ task (restoreId task.query response))
        have hdelivered := deliver_delivered ({f with buffer := rest}.finish x) task
          (restoreId task.query response)
        rw [hsame] at hfewer hdelivered
        exact .received hlookup hasking hmem hresponse (not_lt.mp hlength) hfewer
          (hdelivered.of_eq rfl rfl)

theorem ask_moves (hlookup : f.tasks.lookup x=some task) (opened sent : Bool) :
    Moves encrypted f (.ask x opened sent) (f.ask x task opened sent).1
      (f.ask x task opened sent).2 := by
  cases opened with
  | false => exact .quiet (.finish f x) (.same rfl rfl) (by simp [Front.ask])
  | true =>
    cases sent with
    | false =>
      have hcounted : Fewer f {f with dnsSeq := f.dnsSeq+1} := .same rfl rfl rfl rfl
      exact .quiet (hcounted.trans (.finish _ x)) (.same rfl rfl) (by simp [Front.ask])
    | true => exact .asked hlookup rfl rfl rfl rfl (.same rfl rfl) (by simp [Front.ask,Aside])

theorem resolved_moves (f : Front) (a : Action) (x : ℕ) (task : Task) (answer : Option Bytes)
    (hencrypted : encrypted=true) :
    Moves encrypted f a (f.resolved x task answer).1 (f.resolved x task answer).2 := by
  cases answer with
  | none => exact .quiet (.finish f x) (.same rfl rfl) (by simp [Front.resolved,Aside])
  | some answer =>
    exact .resolved hencrypted ((Fewer.finish f x).trans (deliver_fewer _ task answer))
      ((deliver_delivered (f.finish x) task answer).of_eq rfl rfl)

/-- Every step of the front is one of these. -/
theorem exec_moves {a : Action} (h : f.exec encrypted a=some (f',events)) :
    Moves encrypted f a f' events := by
  cases a with
  | advance milliseconds =>
    cases h
    exact .quiet (.same rfl rfl rfl rfl) ⟨fun _ _ hcached => hcached,Nat.le_add_right _ _⟩ (by simp)
  | query egressV4Only bytes =>
    have hsame := some_inj.mp h
    have hmoves : Moves encrypted f (.query egressV4Only bytes) _ _ :=
      handleDnsQuery_moves f _ egressV4Only bytes
    rwa [hsame] at hmoves
  | ask x opened sent =>
    obtain ⟨task,hlookup,hask⟩ := bind_eq_some_iff.mp h
    split_ifs at hask
    have hsame := some_inj.mp hask
    have hmoves : Moves encrypted f (.ask x opened sent) _ _ := ask_moves hlookup opened sent
    rwa [hsame] at hmoves
  | arrive request datagram =>
    cases h
    exact .arrived (g := {f with outstanding := f.outstanding.erase request})
      ⟨fun _ _ hx => hx,rfl,List.erase_subset,List.Subset.refl _⟩ (.same rfl rfl)
  | lose request =>
    cases h
    exact .quiet ⟨fun _ _ hx => hx,rfl,List.erase_subset,List.Subset.refl _⟩ (.same rfl rfl)
      (by simp)
  | receive x =>
    obtain ⟨task,hlookup,hreceive⟩ := bind_eq_some_iff.mp h
    split_ifs at hreceive with hasking
    exact receive_moves (.receive x) hlookup hasking hreceive
  | expire x =>
    obtain ⟨task,-,hexpire⟩ := bind_eq_some_iff.mp h
    split_ifs at hexpire
    cases hexpire
    exact .quiet (.finish f x) (.same rfl rfl) (by simp)
  | resolved x answer =>
    obtain ⟨task,-,hresolved⟩ := bind_eq_some_iff.mp h
    split_ifs at hresolved with hencrypted
    have hsame := some_inj.mp hresolved
    have hmoves := resolved_moves f (.resolved x answer) x task answer hencrypted
    rwa [hsame] at hmoves
  | close =>
    cases h
    exact .closed rfl rfl rfl rfl (.same rfl rfl)
  | clear =>
    cases h
    exact .closed rfl rfl rfl rfl ⟨nofun,le_rfl⟩

end Steps

end MsnGuard.SmartDnsSteps
