import MsnGuard.FiniteTables
import MsnGuard.TransitionRuns

/-!
# The calls of the Foxy tunnel

The tunnel holds one upstream session at a time: a start dials the first one, redials replace
it, and a stop closes it. The machine has every session ever constructed and the calls that are
under way, each at the place where it has come to.
-/

namespace MsnGuard.FoxyTunnels

open FiniteTables TransitionRuns List

section Machine

/-- A session is constructed, connected, has lost its channel, or is closed. -/
inductive Session where
  | fresh
  | live
  | lost
  | closed
  deriving DecidableEq

/-- Who redials. -/
inductive Redialer where
  | watchdog
  | callback
  deriving DecidableEq

/-- Who dials. -/
inductive Caller where
  | start
  | redial (r : Redialer)
  deriving DecidableEq

/-- Where `dialUpstream` is: before it reads the candidates, at the address of the first of those
that are left, before the construction of a session, in its connect, and behind it. -/
inductive Dial where
  | entering
  | walking (left : ℕ)
  | constructing (left : ℕ)
  | connecting (s left : ℕ)
  | connected (s : ℕ)

/-- Where `start` is, apart from its dial. -/
inductive StartPhase where
  | opening
  | minting
  | listing
  | serving
  | served

/-- Where `redial` is, apart from its dial. -/
inductive RedialPhase where
  | entering
  | checking
  | rechecking
  | minting
  | closing (s : ℕ)
  | storing (s : ℕ)
  | leaving

/-- Where `stop` is. -/
inductive StopPhase where
  | cancelling
  | clearing
  | unserving
  | closing
  | nulling

/-- What a task is doing; the watchdog waits between its rounds, and the health callback is about
to launch a redial. -/
inductive Task where
  | starting (p : StartPhase)
  | dialing (c : Caller) (d : Dial)
  | redialing (r : Redialer) (p : RedialPhase)
  | watching
  | reporting
  | stopping (p : StopPhase)

/-- The fields of the tunnel, every session ever constructed, the tasks and those among them that
have been cancelled. -/
structure Tunnel where
  socks : Bool
  session : Option ℕ
  dialCandidates : Option ℕ
  appContext : Bool
  watchdog : Option ℕ
  redialing : Bool
  sessions : List Session
  tasks : Table Task
  cancelled : List ℕ

/-- How a step of a task comes out: as it should, with an exception, with the exception of a
cancellation or of the time limit; with a number of candidates, the task of a new watchdog, the
state of the network. -/
inductive Outcome where
  | done
  | fail
  | abort
  | timeout
  | candidates (count : ℕ)
  | launch (w : ℕ)
  | awake (network : Bool)

/-- A start, a stop and a report of bad health begin, a task goes on, the caller of a start is
interrupted, a session loses its channel or closes itself. -/
inductive Action where
  | start (t : ℕ)
  | stop (t : ℕ)
  | unhealthy (t : ℕ)
  | step (t : ℕ) (o : Outcome)
  | interrupt (t : ℕ)
  | lose (s : ℕ)
  | expire (s : ℕ)

/-- A stop is over, with the sessions that are open behind it. -/
inductive Event where
  | stopped (left : List ℕ)
  deriving DecidableEq

namespace Tunnel

variable (n : Tunnel)

/-- Is the session open? -/
def isOpen (s : ℕ) : Bool := n.sessions[s]?.any fun state => decide (state≠.closed)

/-- Is the stored session open? -/
def currentOpen : Bool := n.session.any n.isOpen

/-- Is the stored session connected? -/
def currentLive : Bool := n.session.any fun s => decide (n.sessions[s]?=some .live)

/-- The sessions that are open. -/
def openSessions : List ℕ := (List.range n.sessions.length).filter n.isOpen

/-- The task goes on with something else. -/
def put (t : ℕ) (task : Task) : Tunnel := {n with tasks := n.tasks.insert t task}

/-- The task is over. -/
def finish (t : ℕ) : Tunnel := {n with tasks := n.tasks.erase t}

/-- A session gets another state. -/
def mark (s : ℕ) (state : Session) : Tunnel := {n with sessions := n.sessions.set s state}

/-- A session is constructed; its number is that of the sessions before it. -/
def construct : Tunnel := {n with sessions := n.sessions++[Session.fresh]}

/-- `close` of the stored session. -/
def closeCurrent : Tunnel :=
  match n.session with
  | none => n
  | some s => n.mark s .closed

/-- Can the number name a new task? -/
def isFree (t : ℕ) : Bool := (n.tasks.lookup t).isNone && !n.cancelled.contains t

end Tunnel

/-- The tasks that belong to the scope of the tunnel. -/
def Task.isChild : Task → Bool
  | .watching => true
  | .redialing _ _ => true
  | .dialing (.redial _) _ => true
  | _ => false

/-- What follows an exception out of a dial: a start stops the tunnel, a redial gives up. -/
def Caller.failed : Caller → Task
  | .start => .stopping .cancelling
  | .redial r => .redialing r .leaving

/-- What follows a redial: the next round of the watchdog, unless it was cancelled. -/
def Tunnel.roundOver (n : Tunnel) (t : ℕ) (r : Redialer) : Tunnel :=
  if r=.watchdog ∧ ¬n.cancelled.contains t then n.put t .watching else n.finish t

/-- `start`, apart from its dial. A suspended call of a cancelled task ends with the cancellation
alone; before the dial an exception leaves everything as it is. -/
def startStep (n : Tunnel) (t : ℕ) : StartPhase → Outcome → Option Tunnel
  | .opening,.done => some ({n with appContext := true}.put t (.starting .minting))
  | .minting,.done => if n.cancelled.contains t then none else some (n.put t (.starting .listing))
  | .minting,.fail => some (n.finish t)
  | .minting,.abort => if n.cancelled.contains t then some (n.finish t) else none
  | .listing,.candidates count =>
    if n.cancelled.contains t then none
    else if count=0 then some (n.finish t)
    else some ({n with dialCandidates := some count}.put t (.dialing .start .entering))
  | .listing,.fail => some (n.finish t)
  | .listing,.abort => if n.cancelled.contains t then some (n.finish t) else none
  | .serving,.done => some ({n with socks := true}.put t (.starting .served))
  | .serving,.fail => some (n.put t (.stopping .cancelling))
  | .served,.launch w =>
    if n.isFree w then
      some (({n with watchdog := some w,cancelled := n.cancelled++n.watchdog.toList}.finish
        t).put w .watching)
    else none
  | _,_ => none

/-- `dialUpstream` and what its callers do with the session. An exception goes on to the next
candidate, whatever has been constructed for the last one. -/
def dialStep (n : Tunnel) (t : ℕ) (c : Caller) : Dial → Outcome → Option Tunnel
  | .entering,.done =>
    match n.dialCandidates with
    | none => some (n.put t c.failed)
    | some count => some (n.put t (.dialing c (.walking count)))
  | .walking 0,.done => some (n.put t c.failed)
  | .walking (left+1),.done =>
    if n.cancelled.contains t then none else some (n.put t (.dialing c (.constructing left)))
  | .walking (left+1),.fail =>
    if n.cancelled.contains t then none else some (n.put t (.dialing c (.walking left)))
  | .walking (_+1),.abort => if n.cancelled.contains t then some (n.put t c.failed) else none
  | .walking (_+1),.timeout => if c=.start then none else some (n.put t c.failed)
  | .constructing left,.done =>
    some (n.construct.put t (.dialing c (.connecting n.sessions.length left)))
  | .connecting s _,.done =>
    if n.cancelled.contains t then none
    else some ((n.mark s .live).put t (.dialing c (.connected s)))
  | .connecting _ left,.fail =>
    if n.cancelled.contains t then none else some (n.put t (.dialing c (.walking left)))
  | .connecting _ _,.abort => if n.cancelled.contains t then some (n.put t c.failed) else none
  | .connecting _ _,.timeout => if c=.start then none else some (n.put t c.failed)
  | .connected s,.done =>
    match c with
    | .start => some ({n with session := some s}.put t (.starting .serving))
    | .redial r =>
      if n.socks then some (n.put t (.redialing r (.closing s)))
      else some ((n.mark s .closed).put t (.redialing r .leaving))
  | _,_ => none

/-- `redial`, apart from its dial. -/
def redialStep (n : Tunnel) (t : ℕ) (r : Redialer) : RedialPhase → Outcome → Option Tunnel
  | .entering,.done =>
    if n.redialing then some (n.roundOver t r)
    else some ({n with redialing := true}.put t (.redialing r .checking))
  | .entering,.abort =>
    -- a launched redial that has not begun yet
    if r=.callback ∧ n.cancelled.contains t then some (n.finish t) else none
  | .checking,.done =>
    some (n.put t (.redialing r (if n.appContext then .rechecking else .leaving)))
  | .rechecking,.done => some (n.put t (.redialing r (if n.socks then .minting else .leaving)))
  | .minting,.done =>
    if n.cancelled.contains t then none else some (n.put t (.dialing (.redial r) .entering))
  | .minting,.fail => some (n.put t (.redialing r .leaving))
  | .minting,.abort =>
    if n.cancelled.contains t then some (n.put t (.redialing r .leaving)) else none
  | .closing s,.done => some (n.closeCurrent.put t (.redialing r (.storing s)))
  | .storing s,.done => some ({n with session := some s}.put t (.redialing r .leaving))
  | .leaving,.done => some ({n with redialing := false}.roundOver t r)
  | _,_ => none

/-- One round of the watchdog. -/
def watchStep (n : Tunnel) (t : ℕ) : Outcome → Option Tunnel
  | .awake network =>
    if n.cancelled.contains t then none
    else if ¬n.socks ∨ ¬n.appContext then some (n.finish t)
    else if n.currentLive ∨ ¬network then some n
    else some (n.put t (.redialing .watchdog .entering))
  | .abort => if n.cancelled.contains t then some (n.finish t) else none
  | _ => none

/-- `stop`: the last step takes the stored session away. -/
def stopStep (n : Tunnel) (t : ℕ) : StopPhase → Outcome → Option (Tunnel × List Event)
  | .cancelling,.done =>
    let children := (n.tasks.entries.filter fun e => e.2.isChild).map Sigma.fst
    some ({n with cancelled := n.cancelled++children}.put t (.stopping .clearing),[])
  | .clearing,.done =>
    some ({n with watchdog := none,dialCandidates := none,appContext := false}.put t
      (.stopping .unserving),[])
  | .unserving,.done => some ({n with socks := false}.put t (.stopping .closing),[])
  | .closing,.done => some (n.closeCurrent.put t (.stopping .nulling),[])
  | .nulling,.done =>
    let n := {n with session := none}.finish t
    some (n,[.stopped n.openSessions])
  | _,_ => none

/-- One step of a task. -/
def taskStep (n : Tunnel) (t : ℕ) (o : Outcome) : Task → Option (Tunnel × List Event)
  | .starting p => (startStep n t p o).map fun n' => (n',[])
  | .dialing c d => (dialStep n t c d o).map fun n' => (n',[])
  | .redialing r p => (redialStep n t r p o).map fun n' => (n',[])
  | .watching => (watchStep n t o).map fun n' => (n',[])
  | .reporting =>
    match o with
    | .done => some (n.put t (.redialing .callback .entering),[])
    | _ => none
  | .stopping p => stopStep n t p o

def exec (n : Tunnel) : Action → Option (Tunnel × List Event)
  | .start t =>
    if ¬n.isFree t then none
    else if n.socks then some (n,[])
    else some (n.put t (.starting .opening),[])
  | .stop t => if n.isFree t then some (n.put t (.stopping .cancelling),[]) else none
  | .unhealthy t =>
    if ¬n.isFree t then none
    else if n.socks then some (n.put t .reporting,[])
    else some (n,[])
  | .step t o => (n.tasks.lookup t).bind (taskStep n t o)
  | .interrupt t =>
    match n.tasks.lookup t with
    | some (.starting _) => some ({n with cancelled := n.cancelled++[t]},[])
    | some (.dialing .start _) => some ({n with cancelled := n.cancelled++[t]},[])
    | _ => none
  | .lose s => if n.sessions[s]?=some .live then some (n.mark s .lost,[]) else none
  | .expire s =>
    if n.sessions[s]?=some .live ∨ n.sessions[s]?=some .lost then some (n.mark s .closed,[])
    else none

/-- The tunnel from the start of the process on. -/
def machine : Machine Tunnel Action Event where
  start n := n=⟨false,none,none,false,none,false,[],∅,[]⟩
  allowed _ _ := True
  exec := exec

/-- The session that a task has constructed and not stored yet. -/
def Task.held : Task → Option ℕ
  | .dialing _ (.connecting s _) => some s
  | .dialing _ (.connected s) => some s
  | .redialing _ (.closing s) => some s
  | .redialing _ (.storing s) => some s
  | _ => none

def Task.isStop : Task → Bool
  | .stopping _ => true
  | _ => false

/-- Is a session on its way? -/
def Tunnel.holding (n : Tunnel) : Bool := n.tasks.entries.any fun e => e.2.held.isSome

/-- Is a stop under way? -/
def Tunnel.inStop (n : Tunnel) : Bool := n.tasks.entries.any fun e => e.2.isStop

/-- The tasks that rely on there being no open session stored: a start with a session in its hands,
a redial that has closed the old one, a stop that has closed it. -/
def Task.relies : Task → Bool
  | .dialing .start (.connecting _ _) => true
  | .dialing .start (.connected _) => true
  | .redialing _ (.storing _) => true
  | .stopping .nulling => true
  | _ => false

end Machine

section Tunnels

variable {n n' : Tunnel} {t : ℕ} {task task' : Task}

/-- The session that a task has in its hands. -/
def Tunnel.hands (n : Tunnel) (t : ℕ) : Option ℕ := (n.tasks.lookup t).bind Task.held

/-- No session is on its way. -/
def Tunnel.Free (n : Tunnel) : Prop := ∀ t, n.hands t=none

/-- Nothing open is stored. -/
def Tunnel.Spent (n : Tunnel) : Prop := ∀ s, n.session=some s → n.isOpen s=false

theorem hands_put (t' : ℕ) : (n.put t task).hands t'=if t'=t then task.held else n.hands t' := by
  unfold Tunnel.hands Tunnel.put
  rw [lookup_insert_eq]
  split <;> rfl

theorem hands_finish (t' : ℕ) : (n.finish t).hands t'=if t'=t then none else n.hands t' := by
  unfold Tunnel.hands Tunnel.finish
  rw [lookup_erase_eq]
  split <;> rfl

theorem hands_closeCurrent (t : ℕ) : n.closeCurrent.hands t=n.hands t := by
  unfold Tunnel.closeCurrent
  split <;> rfl

theorem free_of_holding (h : n.holding=false) : n.Free := by
  intro t
  rw [Tunnel.hands,Option.bind_eq_none_iff]
  intro task hlook
  have hnone := any_eq_false.mp h ⟨t,task⟩ (AList.mem_lookup_iff.mp hlook)
  simpa using hnone

theorem not_isStop_of_inStop (h : n.inStop=false) (hlook : n.tasks.lookup t=some task) :
    task.isStop=false := by
  have hnone := any_eq_false.mp h ⟨t,task⟩ (AList.mem_lookup_iff.mp hlook)
  simpa using hnone

theorem hands_of_isFree (h : n.isFree t=true) : n.hands t=none := by
  simp only [Tunnel.isFree,Bool.and_eq_true,Option.isNone_iff_eq_none] at h
  rw [Tunnel.hands,h.1]
  rfl

theorem isOpen_lt {s : ℕ} (h : n.isOpen s=true) : s<n.sessions.length := by
  by_contra hge
  have hnone : n.sessions[s]?=none := getElem?_eq_none (by omega)
  simp [Tunnel.isOpen,hnone] at h

theorem isOpen_mark_ne {s s' : ℕ} (state : Session) (h : s'≠s) :
    (n.mark s state).isOpen s'=n.isOpen s' := by
  simp only [Tunnel.isOpen,Tunnel.mark,getElem?_set_ne h.symm]

theorem isOpen_mark_closed (s : ℕ) : (n.mark s .closed).isOpen s=false := by
  unfold Tunnel.isOpen Tunnel.mark
  rw [getElem?_set_self']
  cases n.sessions[s]? <;> simp

theorem spent_of_currentOpen (h : n.currentOpen=false) : n.Spent := by
  intro s hs
  rwa [Tunnel.currentOpen,hs] at h

/-- The stored session is not open any more once it has been closed. -/
theorem spent_closeCurrent : n.closeCurrent.Spent := by
  unfold Tunnel.closeCurrent
  split
  · rename_i hnone
    intro s hs
    rw [hnone] at hs
    cases hs
  · rename_i stored hstored
    intro s hs
    cases hstored.symm.trans hs
    exact isOpen_mark_closed stored

/-- An open session is the one constructed last or was open before. -/
theorem isOpen_of_construct {s : ℕ} (h : n.construct.isOpen s=true) :
    s=n.sessions.length ∨ n.isOpen s=true := by
  have hlt := isOpen_lt h
  simp only [Tunnel.construct,length_append,length_singleton] at hlt
  rcases Nat.lt_succ_iff_lt_or_eq.mp hlt with hold | hnew
  · right
    simpa only [Tunnel.construct,Tunnel.isOpen,getElem?_append_left hold] using h
  · exact .inl hnew

/-- What relies on the stored session has one in its hands or is a stop. -/
theorem held_or_isStop_of_relies (h : task.relies=true) :
    (∃ s, task.held=some s) ∨ task.isStop=true := by
  unfold Task.relies at h
  split at h
  · exact .inl ⟨_,rfl⟩
  · exact .inl ⟨_,rfl⟩
  · exact .inl ⟨_,rfl⟩
  · exact .inr rfl
  · cases h

end Tunnels

end MsnGuard.FoxyTunnels
