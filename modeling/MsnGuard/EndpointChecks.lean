import MsnGuard.WireguardQueue

/-!
# What a checked WireGuard endpoint has shown

A scan checks an endpoint by a handshake. Without the check of the data plane, the
first datagram that the protocol takes in silence or answers is taken for the end of
the handshake.
-/

namespace MsnGuard.EndpointChecks

open RustText TransitionRuns WireguardQueue

/-- What a datagram is to the protocol that takes it in. -/
inductive Message where
  | initiation
  | response
  | cookieReply
  | transport
  | refused

/-- What the protocol makes of the datagrams of a peer. -/
structure Semantics {π : Type} (tunn : Tunn π) where
  message : tunn.State → Bytes → Message
  initiation : ∀ s d, message s d=.initiation →
    (∃ answer, (tunn.decapsulate s d).2=.writeToNetwork answer) ∧
      tunn.session (tunn.decapsulate s d).1=tunn.session s
  response : ∀ s d, message s d=.response → tunn.session (tunn.decapsulate s d).1=true
  cookieReply : ∀ s d, message s d=.cookieReply → (tunn.decapsulate s d).2=.done ∧
    tunn.session (tunn.decapsulate s d).1=tunn.session s
  /-- Data is taken in only with a session. -/
  transport : ∀ s d, message s d=.transport → tunn.session (tunn.decapsulate s d).1=true
  refused : ∀ s d, message s d=.refused → (tunn.decapsulate s d).2=.err

/-- What a turn of the loop gets, and whether what it sends could be sent. -/
inductive Turn where
  | recv (received : Option Bytes) (sent : Bool)
  | tick (resent sent : Bool)
  | timeout

/-- The loop of the check goes on, or has returned the state that is kept. -/
inductive Check {π : Type} (tunn : Tunn π) where
  | running (s : tunn.State)
  | returned (kept : Option tunn.State)

section Check

variable {π : Type} {tunn : Tunn π}

/-- One turn of the loop, without the check of the data plane. -/
def verifyEndpointKeepSession (s : tunn.State) : Turn → Check tunn
  | .recv none _ | .timeout | .tick false _ => .returned none
  | .recv (some []) _ => .running s
  | .recv (some datagram) sent =>
    match tunn.decapsulate s (stripClientId datagram) with
    | (s',.done) => .returned (some s')
    | (s',.writeToNetwork _) => .returned (if sent then some s' else none)
    | (s',_) => .running s'
  | .tick true sent =>
    match tunn.updateTimers s with
    | (s',.writeToNetwork _) => if sent then .running s' else .returned none
    | (_,.err) => .returned none
    | (s',_) => .running s'

def machine (tunn : Tunn π) : Machine (Check tunn) Turn Unit where
  start c := ∃ s, c=.running s
  allowed _ _ := True
  exec c turn :=
    match c with
    | .running s => some (verifyEndpointKeepSession s turn,[])
    | .returned _ => none

/-- Without a session, what comes is neither a cookie nor an initiation. -/
def NoDistraction (sem : Semantics tunn) (_ : List Unit) (c : Check tunn) (turn : Turn) : Prop :=
  ∀ s datagram sent, c=.running s → turn=.recv (some datagram) sent → tunn.session s=true ∨
    sem.message s (stripClientId datagram)≠.cookieReply ∧
      sem.message s (stripClientId datagram)≠.initiation

/-- A datagram that is not refused then leaves a session. -/
theorem session_of_taken (sem : Semantics tunn) {s s' : tunn.State} {d : Bytes}
    {result : TunnResult π} (hd : tunn.session s=true ∨ sem.message s d≠.cookieReply ∧
      sem.message s d≠.initiation)
    (hresult : tunn.decapsulate s d=(s',result)) (htaken : result≠.err) :
    tunn.session s'=true := by
  have hafter : tunn.session (tunn.decapsulate s d).1=true := by
    cases hmessage : sem.message s d with
    | initiation =>
      rw [(sem.initiation s d hmessage).2]
      exact hd.resolve_right fun hnot => hnot.2 hmessage
    | response => exact sem.response s d hmessage
    | cookieReply =>
      rw [(sem.cookieReply s d hmessage).2]
      exact hd.resolve_right fun hnot => hnot.1 hmessage
    | transport => exact sem.transport s d hmessage
    | refused =>
      have hrefused := sem.refused s d hmessage
      rw [hresult] at hrefused
      exact absurd hrefused htaken
  rwa [hresult] at hafter

/-- A check that succeeds without a distraction has brought a session. -/
theorem verified_session (sem : Semantics tunn) {t : List Unit} {kept : tunn.State}
    (h : (machine tunn).Run (NoDistraction sem) t (.returned (some kept))) :
    tunn.session kept=true := by
  have hall := h.invariant (fun _ c => ∀ kept, c=.returned (some kept) → tunn.session kept=true)
    ?_ ?_
  · exact hall kept rfl
  · rintro _ ⟨s,rfl⟩
    exact nofun
  · intro t c turn c' new _ _ hcond hexec kept hkept
    cases c with
    | returned => cases hexec
    | running s =>
      cases hexec
      unfold verifyEndpointKeepSession at hkept
      split at hkept
      case h_5 datagram sent _ _ =>
        have hd := hcond s datagram sent rfl rfl
        split at hkept
        · rename_i hdone
          cases hkept
          exact session_of_taken sem hd hdone nofun
        · rename_i hwrite
          cases sent with
          | false => cases hkept
          | true =>
            cases hkept
            exact session_of_taken sem hd hwrite nofun
        · cases hkept
      case h_6 =>
        split at hkept
        · split at hkept <;> cases hkept
        all_goals cases hkept
      all_goals cases hkept

end Check

/-- A protocol that tells messages by their first byte, and has only a session. -/
def plainMessages : Tunn Unit where
  State := Bool
  session s := s
  queue _ := []
  carries _ := none
  encapsulate s _ := (s,.writeToNetwork [1])
  decapsulate s datagram :=
    match datagram with
    | 1::_ => (s,.writeToNetwork [2])
    | 2::_ => (true,.writeToNetwork [4])
    | 3::_ => (s,.done)
    | _ => (s,.err)
  updateTimers s := (s,.done)

def plainSemantics : Semantics plainMessages where
  message _ datagram :=
    match datagram with
    | 1::_ => .initiation
    | 2::_ => .response
    | 3::_ => .cookieReply
    | _ => .refused
  initiation s d h := by grind [plainMessages]
  response s d h := by grind [plainMessages]
  cookieReply s d h := by grind [plainMessages]
  transport s d h := by grind [plainMessages]
  refused s d h := by grind [plainMessages]

/-- The peer answers the handshake. -/
theorem response_verified : ∃ t, (machine plainMessages).Run (NoDistraction plainSemantics) t
    (.returned (some true)) ∧ plainMessages.session true=true := by
  have hstart : (machine plainMessages).start (.running false) := ⟨false,rfl⟩
  have hrun : (machine plainMessages).Run (NoDistraction plainSemantics) []
      (.returned (some true)) := by
    refine (Machine.Run.start hstart).next (.recv (some [2]) true) trivial ?_ rfl
    rintro s _ _ _ ⟨⟩
    exact .inr ⟨nofun,nofun⟩
  exact ⟨[],hrun,verified_session plainSemantics hrun⟩

/-- The peer is busy and sends a cookie. -/
theorem cookie_verified : ∃ t, (machine plainMessages).Run always t (.returned (some false)) ∧
    plainMessages.session false=false ∧ plainSemantics.message false [3]=.cookieReply := by
  have hstart : (machine plainMessages).start (.running false) := ⟨false,rfl⟩
  exact ⟨[],(Machine.Run.start hstart).next (.recv (some [3]) true) trivial trivial rfl,rfl,rfl⟩

end MsnGuard.EndpointChecks
