import MsnGuard.RustText
import MsnGuard.TransitionRuns

/-!
# The resolver configuration and its backup

Where no other program manages the resolver, a tunnel writes its own servers into the
configuration file and keeps the former content in a backup. Every operation on a file may fail,
and the process may die between any two of them.
-/

namespace MsnGuard.ResolverFiles

open RustText TransitionRuns List

section Files

/-- The first line of a configuration that a tunnel has written. -/
def RESOLV_MARKER : Bytes := encodeUtf8 "# written by FCAE VPN".toList

/-- Is the configuration one that a tunnel has written? -/
def marked (content : Bytes) : Bool := content.tails.any RESOLV_MARKER.isPrefixOf

/-- The configuration that a tunnel writes. -/
def resolvText (servers : List Text) : Bytes :=
  RESOLV_MARKER++encodeUtf8 (['\n'] ++
    servers.flatMap fun server => "nameserver ".toList++server++['\n'])

/-- What the process is about to do. -/
inductive Phase where
  /-- Nothing; a tunnel may be up. -/
  | idle
  /-- In `apply_resolv_conf`, before the configuration is read. -/
  | reading (servers : List Text)
  /-- Before the backup is created, with the content for it. -/
  | creatingBackup (servers : List Text) (old : Bytes)
  /-- While the backup is written, with what is left of it. -/
  | writingBackup (servers : List Text) (rest : Bytes)
  /-- Before the configuration is emptied. -/
  | creatingConf (backup : Bool) (servers : List Text)
  /-- While the configuration is written, with what is left of it. -/
  | writingConf (backup : Bool) (rest : Bytes)
  /-- After `apply_resolv_conf` has returned, while routes are added. -/
  | addingRoutes (backup : Bool)
  /-- In `restore_resolv_conf`. -/
  | restoring (backup : Bool)
  deriving DecidableEq

/-- The files, and what the process knows. -/
structure State where
  /-- The configuration before the first tunnel. -/
  original : Bytes
  /-- The configuration, if the file exists. -/
  conf : Option Bytes
  /-- The backup, if the file exists. -/
  backup : Option Bytes
  phase : Phase
  /-- The tunnels that are up: has each one got a backup? -/
  guards : List Bool

/-- How an operation on a file ends. A write may take a part of the bytes. -/
inductive Outcome where
  | done (n : ℕ)
  | failed
  deriving DecidableEq

/-- What happens. -/
inductive Action where
  /-- A tunnel is to use the servers. -/
  | apply (servers : List Text)
  /-- The next operation on a file. -/
  | advance (outcome : Outcome)
  /-- A tunnel ends. -/
  | restore (i : ℕ)
  /-- The process dies, and a later one starts. -/
  | crash
  deriving DecidableEq

/-- What an observer sees. -/
inductive Event where
  /-- The servers of a tunnel are in use. -/
  | applied
  /-- A restoration has succeeded and leaves this configuration. -/
  | restored (conf : Option Bytes)
  | crashed
  deriving DecidableEq

namespace State

/-- A file system before the first tunnel. -/
def fresh (original : Bytes) : State := ⟨original,some original,none,.idle,[]⟩

/-- The configuration has been read. A file that cannot be read counts as empty. -/
def readConf (s : State) (servers : List Text) (old : Bytes) : State :=
  if marked old then {s with phase := .creatingConf false servers}
  else {s with phase := .creatingBackup servers old}

/-- Bytes are added to the backup. -/
def writeBackup (s : State) (servers : List Text) (rest : Bytes) (n : ℕ) : State :=
  let left := rest.drop (n+1)
  {s with backup := s.backup.map (· ++ rest.take (n+1))
          phase := if left=[] then .creatingConf true servers
                    else .writingBackup servers left}

/-- Bytes are added to the configuration. -/
def writeConf (s : State) (backup : Bool) (rest : Bytes) (n : ℕ) : State :=
  let left := rest.drop (n+1)
  {s with conf := s.conf.map (· ++ rest.take (n+1))
          phase := if left=[] then .addingRoutes backup else .writingConf backup left}

/-- Bring the backup back, or remove the configuration if there is none. A file
that does not exist can be neither moved nor removed. -/
def restoreConf (s : State) (backup : Bool) : State × List Event :=
  if backup then
    match s.backup with
    | some old => ({s with conf := some old,backup := none,phase := .idle},[.restored (some old)])
    | none => ({s with phase := .idle},[])
  else if s.conf.isSome then ({s with conf := none,phase := .idle},[.restored none])
  else ({s with phase := .idle},[])

/-- The next operation on a file. -/
def advance (s : State) : Outcome → State × List Event
  | .done n =>
    match s.phase with
    | .idle => (s,[])
    | .reading servers => (s.readConf servers (s.conf.getD []),[])
    | .creatingBackup servers old =>
      ({s with backup := some [],phase := .writingBackup servers old},[])
    | .writingBackup servers rest => (s.writeBackup servers rest n,[])
    | .creatingConf backup servers =>
      ({s with conf := some [],phase := .writingConf backup (resolvText servers)},[])
    | .writingConf backup rest => (s.writeConf backup rest n,[])
    | .addingRoutes backup => ({s with phase := .idle,guards := s.guards++[backup]},[.applied])
    | .restoring backup => s.restoreConf backup
  | .failed =>
    match s.phase with
    | .reading servers => (s.readConf servers [],[])
    -- A route that cannot be added takes the configuration back at once.
    | .addingRoutes backup => ({s with phase := .restoring backup},[])
    | _ => ({s with phase := .idle},[])

end State

/-- What an action does. Calls are made only while no other one is running. -/
def exec (s : State) : Action → Option (State × List Event)
  | .apply servers =>
    some (if s.phase=.idle then {s with phase := .reading servers} else s,[])
  | .advance outcome => some (s.advance outcome)
  | .restore i =>
    match s.phase,s.guards[i]? with
    | .idle,some backup =>
      some ({s with phase := .restoring backup,guards := s.guards.eraseIdx i},[])
    | _,_ => some (s,[])
  | .crash => some ({s with phase := .idle,guards := []},[.crashed])

/-- Any original content, and any sequence of tunnels, failures and crashes. -/
def machine : Machine State Action Event where
  start s := ∃ original, s=.fresh original
  allowed _ _ := True
  exec := exec

end Files

section Restoring

/-- Has the configuration not been touched since it was the original one? -/
def Phase.untouched : Phase → Bool
  | .idle | .reading _ | .creatingBackup _ _ | .writingBackup _ _ | .creatingConf _ _ => true
  | .writingConf _ _ | .addingRoutes _ | .restoring _ => false

/-- A condition on the steps: one tunnel at a time, no death of the process
between the first change of the configuration and its restoration, and there no
failure; the configuration can be read and is not one that a tunnel has written. -/
def orderly (s : State) : Action → Bool
  | .apply _ => s.guards.isEmpty
  | .advance outcome =>
    match s.phase with
    | .reading _ => outcome != .failed && !marked (s.conf.getD [])
    | .writingConf _ _ | .restoring _ => outcome != .failed
    | _ => true
  | .restore _ => true
  | .crash => s.phase.untouched && s.guards.isEmpty

/-- The condition as one on histories, states and actions. -/
def Orderly (_ : List Event) (s : State) (a : Action) : Prop := orderly s a=true

/-- What is known in each phase. -/
def Kept (s : State) : Prop :=
  match s.phase with
  | .idle => s.guards=[] ∧ s.conf=some s.original ∨ s.guards=[true] ∧ s.backup=some s.original
  | .reading _ => s.guards=[] ∧ s.conf=some s.original
  | .creatingBackup _ old => s.guards=[] ∧ s.conf=some s.original ∧ old=s.original
  | .writingBackup _ rest => s.guards=[] ∧ s.conf=some s.original ∧
      ∃ front, s.backup=some front ∧ front++rest=s.original
  | .creatingConf backup _ => s.guards=[] ∧ s.conf=some s.original ∧
      backup=true ∧ s.backup=some s.original
  | .writingConf backup _ | .addingRoutes backup | .restoring backup =>
      s.guards=[] ∧ backup=true ∧ s.backup=some s.original

variable {s s' : State} {t new : List Event}

/-- While the configuration is untouched and no tunnel is up, it is the original one. -/
theorem Kept.conf (h : Kept s) (huntouched : s.phase.untouched=true) (hguards : s.guards=[]) :
    s.conf=some s.original := by
  unfold Kept at h
  split at h
  · rcases h with ⟨-,hconf⟩ | ⟨hup,-⟩
    · exact hconf
    · rw [hguards] at hup
      cases hup
  · exact h.2
  · exact h.2.1
  · exact h.2.1
  · exact h.2.1
  all_goals
    rename_i hphase
    rw [hphase] at huntouched
    cases huntouched

/-- The backup grows towards the original content. -/
theorem kept_writeBackup {servers : List Text} {rest front : Bytes} (hguards : s.guards=[])
    (hconf : s.conf=some s.original) (hbackup : s.backup=some front)
    (hwhole : front++rest=s.original) (n : ℕ) : Kept (s.writeBackup servers rest n) := by
  have hgrown : s.backup.map (· ++ rest.take (n+1))=some (front++rest.take (n+1)) := by
    rw [hbackup]
    rfl
  have hall : front++rest.take (n+1)++rest.drop (n+1)=s.original := by
    rw [append_assoc,take_append_drop,hwhole]
  unfold State.writeBackup
  dsimp only
  rw [hgrown]
  split
  · rename_i hleft
    rw [hleft,append_nil] at hall
    exact ⟨hguards,hconf,rfl,congrArg some hall⟩
  · exact ⟨hguards,hconf,_,rfl,hall⟩

/-- An operation on a file that ends well. -/
theorem kept_done (h : Kept s) (n : ℕ) (hc : orderly s (.advance (.done n))=true) :
    Kept (s.advance (.done n)).1 ∧ (s.advance (.done n)).1.original=s.original ∧
      ∀ conf, .restored conf∈(s.advance (.done n)).2 → conf=some s.original := by
  unfold Kept at h
  unfold orderly at hc
  unfold State.advance
  cases hphase : s.phase with
  | idle =>
    rw [hphase] at h
    refine ⟨?_,rfl,nofun⟩
    unfold Kept
    rwa [hphase]
  | reading servers =>
    rw [hphase] at h hc
    obtain ⟨hguards,hconf⟩ := h
    have hunmarked : marked (s.conf.getD [])=false := by
      rw [Bool.and_eq_true,Bool.not_eq_true'] at hc
      exact hc.2
    dsimp only
    unfold State.readConf
    rw [hunmarked]
    refine ⟨⟨hguards,hconf,?_⟩,rfl,nofun⟩
    rw [hconf]
    rfl
  | creatingBackup servers old =>
    rw [hphase] at h
    obtain ⟨hguards,hconf,hold⟩ := h
    exact ⟨⟨hguards,hconf,[],rfl,hold⟩,rfl,nofun⟩
  | writingBackup servers rest =>
    rw [hphase] at h
    obtain ⟨hguards,hconf,front,hbackup,hwhole⟩ := h
    exact ⟨kept_writeBackup hguards hconf hbackup hwhole n,rfl,nofun⟩
  | creatingConf backup servers =>
    rw [hphase] at h
    obtain ⟨hguards,-,hbackup,hcontent⟩ := h
    exact ⟨⟨hguards,hbackup,hcontent⟩,rfl,nofun⟩
  | writingConf backup rest =>
    rw [hphase] at h
    refine ⟨?_,rfl,nofun⟩
    dsimp only
    unfold State.writeConf Kept
    dsimp only
    split <;> rename_i heq <;> split at heq <;> cases heq <;> exact h
  | addingRoutes backup =>
    rw [hphase] at h
    obtain ⟨hguards,rfl,hcontent⟩ := h
    refine ⟨.inr ⟨?_,hcontent⟩,rfl,by simp⟩
    dsimp only
    rw [hguards,nil_append]
  | restoring backup =>
    rw [hphase] at h
    obtain ⟨hguards,rfl,hcontent⟩ := h
    dsimp only
    unfold State.restoreConf
    rw [if_pos rfl,hcontent]
    refine ⟨.inl ⟨hguards,rfl⟩,rfl,fun conf hmem => ?_⟩
    cases mem_singleton.mp hmem
    rfl

/-- An operation on a file that fails before the configuration is touched. -/
theorem kept_failed (h : Kept s) (hc : orderly s (.advance .failed)=true) :
    Kept (s.advance .failed).1 ∧ (s.advance .failed).1.original=s.original ∧
      (s.advance .failed).2=[] := by
  unfold Kept at h
  unfold orderly at hc
  unfold State.advance
  cases hphase : s.phase with
  | idle | addingRoutes backup =>
    rw [hphase] at h
    exact ⟨h,rfl,rfl⟩
  | reading servers | writingConf backup rest | restoring backup =>
    rw [hphase] at hc
    cases hc
  | creatingBackup servers old | writingBackup servers rest | creatingConf backup servers =>
    rw [hphase] at h
    exact ⟨.inl ⟨h.1,h.2.1⟩,rfl,rfl⟩

/-- A tunnel ends. -/
theorem kept_restore (h : Kept s) (i : ℕ) (hstep : exec s (.restore i)=some (s',new)) :
    Kept s' ∧ s'.original=s.original ∧ new=[] := by
  rw [exec] at hstep
  split at hstep
  · rename_i backup hphase hguard
    cases hstep
    unfold Kept at h
    rw [hphase] at h
    rcases h with ⟨hnone,-⟩ | ⟨hup,hcontent⟩
    · rw [hnone] at hguard
      cases hguard
    · rw [hup] at hguard
      cases i with
      | zero =>
        cases hguard
        refine ⟨⟨?_,rfl,hcontent⟩,rfl,rfl⟩
        rw [hup]
        rfl
      | succ i => cases hguard
  · cases hstep
    exact ⟨h,rfl,rfl⟩

/-- An orderly step keeps what is known, and a restoration brings the original back. -/
theorem exec_kept (h : Kept s) {a : Action} (hc : orderly s a=true)
    (hstep : exec s a=some (s',new)) :
    Kept s' ∧ s'.original=s.original ∧ ∀ conf, .restored conf∈new → conf=some s.original := by
  cases a with
  | apply servers =>
    cases hstep
    split
    · rename_i hphase
      have hguards := isEmpty_iff.mp hc
      refine ⟨⟨hguards,h.conf ?_ hguards⟩,rfl,nofun⟩
      rw [hphase]
      rfl
    · exact ⟨h,rfl,nofun⟩
  | advance outcome =>
    cases outcome with
    | done n =>
      have hdone := kept_done h n hc
      rw [Option.some.inj hstep] at hdone
      exact hdone
    | failed =>
      have hfailed := kept_failed h hc
      rw [Option.some.inj hstep] at hfailed
      obtain ⟨hkept,horiginal,rfl⟩ := hfailed
      exact ⟨hkept,horiginal,nofun⟩
  | restore i =>
    obtain ⟨hkept,horiginal,rfl⟩ := kept_restore h i hstep
    exact ⟨hkept,horiginal,nofun⟩
  | crash =>
    cases hstep
    rw [orderly,Bool.and_eq_true] at hc
    have hconf := h.conf hc.1 (isEmpty_iff.mp hc.2)
    exact ⟨.inl ⟨rfl,hconf⟩,rfl,by simp⟩

/-- In every run whose steps are orderly, every restoration that succeeds leaves
the original configuration. -/
theorem run_restores_original (h : machine.Run Orderly t s) :
    ∀ conf, .restored conf∈t → conf=some s.original := by
  have hinv := h.invariant (fun t s => Kept s ∧ ∀ conf, .restored conf∈t → conf=some s.original)
    ?_ ?_
  · exact hinv.2
  · rintro s ⟨original,rfl⟩
    exact ⟨.inl ⟨rfl,rfl⟩,nofun⟩
  · intro t s a s' new hinv _ hc hstep
    obtain ⟨hkept,horiginal,hnew⟩ := exec_kept hinv.1 hc hstep
    refine ⟨hkept,fun conf hmem => ?_⟩
    rw [horiginal]
    rcases List.mem_append.mp hmem with hold | hadded
    · exact hinv.2 conf hold
    · exact hnew conf hadded

/-- The steps of a tunnel that comes up. -/
def bringUp (servers : List Text) : List Action :=
  .apply servers::List.replicate 6 (.advance (.done 100))

/-- The steps of a tunnel that ends. -/
def takeDown : List Action := [.restore 0,.advance (.done 0)]

/-- The process dies while it writes the backup; a later one restores the original. -/
theorem run_restores_after_crash : ∃ t s, machine.Run Orderly t s ∧
    (s.original=[110,10] ∧ t=[.crashed,.applied,.restored (some [110,10])]) ∧
    ∀ conf, .restored conf∈t → conf=some s.original :=
  Machine.exists_run_with orderly (fun _ _ _ ha => ⟨trivial,ha⟩) ⟨[110,10],rfl⟩
    ((.apply []::List.replicate 3 (.advance (.done 0)))++([.crash] : List Action) ++
      bringUp ["1.1.1.1".toList]++takeDown) (by decide +kernel) fun _ _ => run_restores_original

/-- The process dies while a tunnel is up. The next one finds the servers of the
tunnel, takes no backup, and its end removes the configuration. -/
theorem crash_loses_original : ∃ t s, machine.Run always t s ∧
    s.original=[110,10] ∧ s.phase=.idle ∧ s.guards=[] ∧
    t=[.applied,.crashed,.applied,.restored none] ∧ s.conf=none ∧
    s.backup=some [110,10] :=
  Machine.exists_run (fun _ _ => true) (fun _ _ _ _ => ⟨trivial,trivial⟩) ⟨[110,10],rfl⟩
    (bringUp ["1.1.1.1".toList]++([.crash] : List Action)++bringUp ["1.1.1.1".toList] ++
      takeDown) (by decide +kernel)

end Restoring

end MsnGuard.ResolverFiles
